import ShortSched.Layout
import ShortSched.WakeTheorems

/-!
# The representation invariant of the runqueue

`RqAgree`: the queues, bitmaps and counters of the runqueue agree and `current` is queued.
`RqInv` adds what the class of a task has to do with the array it is queued in. The first is
about the runqueue as a whole and is carried through an operation by the two halves of a move,
`RqAgree.dequeue` or `RqAgree.deactivate` and `AgreeExcept.enqueueTail` or
`AgreeExcept.activate`; the second is about one task at a time (`TaskInv`).
-/

namespace ShortSched

open General

/-! ## The four arrays -/

/-- The four pointers name all the arrays there are. -/
theorem RqPtrs.univ_eq (q : RqPtrs) :
    (Finset.univ : Finset PrioArrayPtr) = {q.active, q.expired, q.rtShort, q.overdue} := by
  have hcard : ([q.active, q.expired, q.rtShort, q.overdue].toFinset).card = 4 :=
    List.toFinset_card_of_nodup q.distinct
  have huniv : [q.active, q.expired, q.rtShort, q.overdue].toFinset = Finset.univ := by
    rw [← Finset.card_eq_iff_eq_univ, hcard]
    rfl
  rw [← huniv]
  simp

/-- The four arrays, under the names that the runqueue has for them. -/
theorem RqPtrs.sum_eq (q : RqPtrs) (f : PrioArrayPtr → ℤ) :
    ∑ array, f array = f q.active + f q.expired + f q.rtShort + f q.overdue := by
  have h := q.distinct
  simp only [List.nodup_cons, List.mem_cons, List.not_mem_nil, or_false, not_or] at h
  obtain ⟨⟨h₁, h₂, h₃⟩, ⟨h₄, h₅⟩, h₆, -⟩ := h
  rw [q.univ_eq, Finset.sum_insert (by simp [h₁, h₂, h₃]), Finset.sum_insert (by simp [h₄, h₅]),
    Finset.sum_insert (by simp [h₆]), Finset.sum_singleton]
  omega

namespace Sys

variable {s s' : Sys} {p t : TaskId} {array : PrioArrayPtr} {n : ℤ}

/-- A change of one summand. -/
theorem sum_update (f : PrioArrayPtr → ℤ) (array : PrioArrayPtr) (x : ℤ) :
    ∑ a, Function.update f array (f array + x) a = ∑ a, f a + x := by
  have h := Finset.sum_update_of_mem (Finset.mem_univ array) f (f array + x)
  have h' := Finset.sum_update_of_mem (Finset.mem_univ array) f (f array)
  rw [Function.update_eq_self] at h'
  rw [h, h']
  omega

theorem sum_nrActives_dequeueTask (p : TaskId) (array : PrioArrayPtr) (s : Sys) :
    ∑ a, (s.dequeueTask p array).nrActives a = ∑ a, s.nrActives a - 1 := by
  rw [nrActives_dequeueTask]
  exact sum_update s.nrActives array (-1)

theorem sum_nrActives_enqueueFinish (p : TaskId) (array : PrioArrayPtr) (s : Sys) :
    ∑ a, (s.enqueueFinish p array).nrActives a = ∑ a, s.nrActives a + 1 := by
  rw [nrActives_enqueueFinish]
  exact sum_update s.nrActives array 1

theorem sum_nrActives_enqueueTail (p : TaskId) (array : PrioArrayPtr) (s : Sys) :
    ∑ a, (s.enqueueTail p array).nrActives a = ∑ a, s.nrActives a + 1 := by
  rw [enqueueTail, sum_nrActives_enqueueFinish, listAddTail, nrActives_setQueue]

/-! ## The runqueue agrees with itself -/

/-- Bitmaps, `nr_active`, `nr_running` and queue membership agree; `current` is the idle task
or queued, and the idle task is never queued. -/
structure RqAgree (s : Sys) : Prop where
  layout : s.Layout
  nrRunning : s.rq.nrRunning = ∑ array, s.nrActives array
  idle_array : (s.task s.rq.idle).array = none
  curr : s.rq.curr = s.rq.idle ∨ s.current.array ≠ none

/-- `RqAgree` while `p` is linked nowhere and `nr_running` counts `n` tasks too many. -/
structure AgreeExcept (p : TaskId) (n : ℤ) (s : Sys) : Prop where
  layout : s.LayoutExcept p
  nrRunning : s.rq.nrRunning = ∑ array, s.nrActives array + n
  ne_idle : p ≠ s.rq.idle
  idle_array : (s.task s.rq.idle).array = none
  curr : s.rq.curr = s.rq.idle ∨ s.rq.curr = p ∨ s.current.array ≠ none

namespace RqAgree

/-- Only the arrays, `nr_running`, `curr`, `idle` and the fields `array` and, of queued tasks,
`prio` matter. -/
theorem congr (h : s.RqAgree) (harrays : s'.rq.arrays = s.rq.arrays)
    (harray : ∀ t, (s'.task t).array = (s.task t).array)
    (hprio : ∀ t, (s.task t).array ≠ none → (s'.task t).prio = (s.task t).prio)
    (hrunning : s'.rq.nrRunning = s.rq.nrRunning) (hidle : s'.rq.idle = s.rq.idle)
    (hcurr : s'.rq.curr = s.rq.curr) : s'.RqAgree where
  layout := h.layout.congr harrays harray hprio
  nrRunning := by rw [hrunning, h.nrRunning, nrActives_congr harrays]
  idle_array := by rw [hidle, harray, h.idle_array]
  curr := by
    rw [hcurr, hidle, current, hcurr, harray]
    exact h.curr

/-- A task that is in no array is no exception. -/
theorem asleep (h : s.RqAgree) (hp : (s.task p).array = none) (hidle : p ≠ s.rq.idle) :
    s.AgreeExcept p 0 where
  layout := h.layout.toExcept hp
  nrRunning := by rw [h.nrRunning, add_zero]
  ne_idle := hidle
  idle_array := h.idle_array
  curr := h.curr.imp_right .inr

theorem ne_idle (h : s.RqAgree) (hp : (s.task p).array = some array) : p ≠ s.rq.idle := by
  rintro rfl
  rw [h.idle_array] at hp
  cases hp

/-- **`dequeue_task`**: the queues agree except for the task, which is still counted. -/
theorem dequeue (h : s.RqAgree) (hp : (s.task p).array = some array) :
    (s.dequeueTask p array).AgreeExcept p 1 where
  layout := h.layout.dequeueTask hp
  nrRunning := by
    rw [sum_nrActives_dequeueTask, dequeueTask_ptrs, h.nrRunning]
    omega
  ne_idle := by
    rw [dequeueTask_ptrs]
    exact h.ne_idle hp
  idle_array := by
    rw [dequeueTask_ptrs, dequeueTask_task]
    exact h.idle_array
  curr := by
    rw [current, dequeueTask_ptrs, dequeueTask_task]
    exact h.curr.imp_right .inr

/-- `deactivate_task` counts it out as well. -/
theorem deactivate (h : s.RqAgree) (hp : (s.task p).array = some array) :
    ((s.dropRunning p).dequeueTask p array).AgreeExcept p 0 where
  layout := by
    have hlayout : (s.dropRunning p).Layout :=
      h.layout.congr rfl (fun _ => rfl) fun _ _ => rfl
    exact hlayout.dequeueTask hp
  nrRunning := by
    have hsum : ∑ a, (s.dropRunning p).nrActives a = s.rq.nrRunning := h.nrRunning.symm
    rw [sum_nrActives_dequeueTask, dequeueTask_ptrs, hsum, add_zero]
    rfl
  ne_idle := by
    rw [dequeueTask_ptrs]
    exact h.ne_idle hp
  idle_array := by
    rw [dequeueTask_ptrs, dequeueTask_task]
    exact h.idle_array
  curr := by
    rw [current, dequeueTask_ptrs, dequeueTask_task]
    exact h.curr.imp_right .inr

end RqAgree

namespace AgreeExcept

/-- Of `p` itself nothing matters. -/
theorem congr (h : s.AgreeExcept p n) (harrays : s'.rq.arrays = s.rq.arrays)
    (harray : ∀ t, t ≠ p → (s'.task t).array = (s.task t).array)
    (hprio : ∀ t, t ≠ p → (s'.task t).prio = (s.task t).prio)
    (hrunning : s'.rq.nrRunning = s.rq.nrRunning) (hidle : s'.rq.idle = s.rq.idle)
    (hcurr : s'.rq.curr = s.rq.curr) : s'.AgreeExcept p n where
  layout := h.layout.congr harrays harray hprio
  nrRunning := by rw [hrunning, h.nrRunning, nrActives_congr harrays]
  ne_idle := by rw [hidle]; exact h.ne_idle
  idle_array := by rw [hidle, harray _ h.ne_idle.symm, h.idle_array]
  curr := by
    rw [hcurr, hidle, current, hcurr]
    by_cases hp : s.rq.curr = p
    · exact .inr (.inl hp)
    · rw [harray _ hp]
      exact h.curr

theorem modify (h : s.AgreeExcept p n) (f : Task → Task) : (s.modify p f).AgreeExcept p n :=
  h.congr rfl (fun t ht => by simp [ht]) (fun t ht => by simp [ht]) rfl rfl rfl

/-- The last statements of `enqueue_task` and a correction of `nr_running` lead back to
agreement. -/
theorem attach (array : PrioArrayPtr) (l : List TaskId) (h : s.AgreeExcept p n)
    (hrange : 0 ≤ (s.task p).prio ∧ (s.task p).prio < maxPrio)
    (hl : l.Perm (p :: s.queue array (s.task p).prio))
    (harrays : s'.rq.arrays =
      ((s.setQueue array (s.task p).prio l).enqueueFinish p array).rq.arrays)
    (htask : s'.task = ((s.setQueue array (s.task p).prio l).enqueueFinish p array).task)
    (hrunning : s'.rq.nrRunning = s.rq.nrRunning - n + 1) (hidle : s'.rq.idle = s.rq.idle)
    (hcurr : s'.rq.curr = s.rq.curr) : s'.RqAgree where
  layout := (h.layout.enqueueFinish hrange hl).congr harrays (fun t => by rw [htask])
    fun t _ => by rw [htask]
  nrRunning := by
    have hsum := sum_nrActives_enqueueFinish p array (s.setQueue array (s.task p).prio l)
    rw [nrActives_setQueue] at hsum
    rw [nrActives_congr harrays, hsum, hrunning, h.nrRunning]
    omega
  idle_array := by
    rw [hidle, htask, enqueueFinish_task, Function.update_of_ne h.ne_idle.symm]
    exact h.idle_array
  curr := by
    rw [current, hcurr, hidle, htask, enqueueFinish_task]
    by_cases hp : s.rq.curr = p
    · right
      rw [hp, Function.update_self]
      exact Option.some_ne_none _
    · rw [Function.update_of_ne hp]
      exact h.curr.imp_right fun hc => hc.resolve_left hp

/-- **`enqueue_task`** without its fork branch: the queues agree with all tasks again. -/
theorem enqueueTail (h : s.AgreeExcept p 1)
    (hrange : 0 ≤ (s.task p).prio ∧ (s.task p).prio < maxPrio) :
    (s.enqueueTail p array).RqAgree := by
  refine h.attach _ _ hrange (List.perm_append_singleton p _) rfl rfl ?_ ?_ ?_
  · rw [enqueueTail_ptrs]
    omega
  · rw [enqueueTail_ptrs]
  · rw [enqueueTail_ptrs]

/-- `enqueue_task` outside its fork branch, with `nr_running++`. -/
theorem activate (h : s.AgreeExcept p 0)
    (hrange : 0 ≤ (s.task p).prio ∧ (s.task p).prio < maxPrio) :
    ((s.enqueueTail p array).modifyRq fun rq =>
      { rq with nrRunning := rq.nrRunning + 1 }).RqAgree := by
  refine h.attach _ _ hrange (List.perm_append_singleton p _) rfl rfl ?_ ?_ ?_
  · simp only [modifyRq_rq, enqueueTail_ptrs]
    omega
  · simp only [modifyRq_rq, enqueueTail_ptrs]
  · simp only [modifyRq_rq, enqueueTail_ptrs]

end AgreeExcept

end Sys
end ShortSched
