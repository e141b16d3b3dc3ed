import ShortSched.ScheduleTheorems

/-!
# What `sys_sched_yield` changes

A yield takes `current` off its queue and links it into a queue of the same array: behind the
first task of its own queue or, when `current` is alone there, of the best queue below.
-/

namespace ShortSched
namespace Sys

open General

variable {s s' : Sys} {p t : TaskId} {array : PrioArrayPtr}

/-- The priority that `sys_sched_yield` gives a task of the array. -/
def yieldPrio (p : TaskId) (array : PrioArrayPtr) (s : Sys) : ℤ :=
  let prio := (s.task p).prio
  if (s.task p).RtTask ∨ remove p s.queues (array, prio) ≠ [] then prio
  else
    let i := schedFindFirstBit (Function.update (s.rq.arrays array).bitmap prio false)
    if i = maxPrio ∨ i ≤ prio then prio else i

/-- What a yield of `p` does to the queue of its new priority. -/
structure YieldFrame (p : TaskId) (array : PrioArrayPtr) (s s' : Sys) : Prop where
  task : s'.task = Function.update s.task p { s.task p with prio := s.yieldPrio p array }
  queues : ∃ l, l.Perm (p :: remove p s.queues (array, s.yieldPrio p array)) ∧
    s'.queues = Function.update (remove p s.queues) (array, s.yieldPrio p array) l
  bits : s'.bits = if remove p s.queues (array, (s.task p).prio) = [] ∧ ¬(s.task p).RtTask then
      Function.update (Function.update s.bits (array, (s.task p).prio) false)
        (array, s.yieldPrio p array) true
    else s.bits
  nrActives : s'.nrActives = s.nrActives
  ptrs : s'.rq.toRqPtrs = s.rq.toRqPtrs
  jiffies : s'.jiffies = s.jiffies
  tasklist : s'.tasklist = s.tasklist
  forking : s'.forking = s.forking

theorem yieldPrio_of_stay
    (h : (s.task p).RtTask ∨ remove p s.queues (array, (s.task p).prio) ≠ []) :
    s.yieldPrio p array = (s.task p).prio := if_pos h

/-- A task that stays at its priority is not changed. -/
theorem update_prio_self {prio : ℤ} (h : prio = (s.task p).prio) :
    Function.update s.task p { s.task p with prio := prio } = s.task := by
  rw [h]
  exact Function.update_eq_self p s.task

theorem yieldFrame_of_rtTask (hrt : (s.task p).RtTask) :
    YieldFrame p array s ((s.listDel p).listAddTail p array (s.task p).prio) where
  task := (update_prio_self (yieldPrio_of_stay (.inl hrt))).symm
  queues := by
    rw [yieldPrio_of_stay (.inl hrt)]
    refine ⟨_, List.perm_append_singleton p _, ?_⟩
    rw [listAddTail, queues_setQueue, queues_listDel]
    rfl
  bits := by
    rw [if_neg fun hc => hc.2 hrt, listAddTail, bits_setQueue, bits_listDel]
  nrActives := by rw [listAddTail, nrActives_setQueue, nrActives_listDel]
  ptrs := rfl
  jiffies := rfl
  tasklist := rfl
  forking := rfl

theorem yieldFrame_yieldTail (hrt : ¬(s.task p).RtTask) :
    YieldFrame p array s (s.yieldTail p array) := by
  unfold yieldTail
  have hqueue : (s.listDel p).queue array (s.task p).prio
      = remove p s.queues (array, (s.task p).prio) := rfl
  simp only [hqueue]
  by_cases hne : remove p s.queues (array, (s.task p).prio) ≠ []
  · rw [if_pos hne]
    have hprio : s.yieldPrio p array = (s.task p).prio := yieldPrio_of_stay (.inr hne)
    refine ⟨(update_prio_self hprio).symm, ?_, ?_, ?_, rfl, rfl, rfl, rfl⟩
    · rw [hprio]
      refine ⟨_, pushSecond_perm p _, ?_⟩
      rw [listAddNext, queues_setQueue, queues_listDel]
      rfl
    · rw [if_neg fun hc => hne hc.1, listAddNext, bits_setQueue, bits_listDel]
    · rw [listAddNext, nrActives_setQueue, nrActives_listDel]
  · rw [if_neg hne]
    have hbitmap : (((s.listDel p).setBit (s.task p).prio false array).rq.arrays array).bitmap
        = Function.update (s.rq.arrays array).bitmap (s.task p).prio false := by
      simp [setBit, modifyArray, listDel]
    have hprio : (let i := schedFindFirstBit (Function.update (s.rq.arrays array).bitmap
          (s.task p).prio false)
        if i = maxPrio ∨ i ≤ (s.task p).prio then (s.task p).prio else i) = s.yieldPrio p array := by
      rw [yieldPrio, if_neg (not_or.mpr ⟨hrt, hne⟩)]
    simp only [hbitmap] at hprio ⊢
    rw [hprio]
    have hqueues : ((s.listDel p).setBit (s.task p).prio false array).queues = remove p s.queues := by
      rw [queues_setBit, queues_listDel]
    refine ⟨rfl, ?_, ?_, ?_, rfl, rfl, rfl, rfl⟩
    · refine ⟨_, pushSecond_perm p _, ?_⟩
      rw [queues_setBit, listAddNext, queues_setQueue, queues_modify, ← hqueues]
      rfl
    · rw [if_pos ⟨not_not.mp hne, hrt⟩, bits_setBit, listAddNext, bits_setQueue, bits_modify,
        bits_setBit, bits_listDel]
    · rw [nrActives_setBit, listAddNext, nrActives_setQueue, nrActives_modify, nrActives_setBit,
        nrActives_listDel]

theorem yieldRequeue_eq_some (h : s.yieldRequeue = some s') :
    ∃ array, s.current.array = some array ∧ YieldFrame s.rq.curr array s s' := by
  unfold yieldRequeue at h
  simp only [Option.bind_eq_bind, Option.bind_eq_some_iff] at h
  obtain ⟨array, harray, h⟩ := h
  refine ⟨array, harray, ?_⟩
  split at h
  · next hrt =>
    obtain rfl := Option.some.inj h
    exact yieldFrame_of_rtTask hrt
  · next hrt =>
    obtain rfl := Option.some.inj h
    exact yieldFrame_yieldTail hrt

theorem yieldRequeue_of_queued (h : s.current.array = some array) :
    ∃ s', s.yieldRequeue = some s' := by
  unfold yieldRequeue
  simp only [Option.bind_eq_bind]
  rw [h, Option.bind_some]
  split
  · exact ⟨_, rfl⟩
  · exact ⟨_, rfl⟩

/-- The new priority is valid, and below the old one if it is not the old one. -/
theorem yieldPrio_range (array : PrioArrayPtr)
    (h : 0 ≤ (s.task p).prio ∧ (s.task p).prio < maxPrio) :
    (s.task p).prio ≤ s.yieldPrio p array ∧ s.yieldPrio p array < maxPrio := by
  unfold yieldPrio
  dsimp only
  split
  · exact ⟨le_rfl, h.2⟩
  split
  · exact ⟨le_rfl, h.2⟩
  · next hne =>
    obtain ⟨hmax, hle⟩ := not_or.mp hne
    obtain ⟨-, hub, -⟩ := findBit_spec
      (Function.update (s.rq.arrays array).bitmap (s.task p).prio false) 0 140
    refine ⟨(not_le.mp hle).le, ?_⟩
    unfold schedFindFirstBit at hmax ⊢
    simp only [maxPrio, maxRtPrio, maxUserRtPrio] at hmax ⊢
    omega

theorem RqAgree.yield (h : s.RqAgree) (hp : (s.task p).array = some array)
    (hy : YieldFrame p array s s') : s'.RqAgree := by
  have hrange := h.layout.range p (by rw [hp]; exact Option.some_ne_none _)
  have hnew := yieldPrio_range array hrange
  -- a yield is a dequeue, a change of priority and an enqueue
  have hexcept := (h.dequeue hp).modify fun t => { t with prio := s.yieldPrio p array }
  set s₁ := (s.dequeueTask p array).modify p fun t => { t with prio := s.yieldPrio p array } with hs₁
  have hprio : (s₁.task p).prio = s.yieldPrio p array := by simp [hs₁]
  have hqueues₁ : s₁.queues = remove p s.queues := by
    rw [hs₁, queues_modify, queues_dequeueTask]
  obtain ⟨l, hl, hqueues⟩ := hy.queues
  have hbit : s.bits (array, (s.task p).prio) = true := by
    rw [h.layout.bitmap array _ (mem_levels.mpr ⟨rfl, hrange⟩)]
    exact List.ne_nil_of_mem (h.layout.mem_queue.mpr ⟨hp, rfl⟩)
  refine hexcept.attach array l ?_ ?_ ?_ ?_ ?_ ?_ ?_
  · rw [hprio]
    exact ⟨hrange.1.trans hnew.1, hnew.2⟩
  · rw [hprio]
    change l.Perm (p :: s₁.queues (array, s.yieldPrio p array))
    rwa [hqueues₁]
  · refine arrays_ext ?_ ?_ ?_
    · rw [hqueues, queues_enqueueFinish, queues_setQueue, hqueues₁, hprio]
    · have htask : ((s₁.setQueue array (s₁.task p).prio l).task p).prio = s.yieldPrio p array :=
        hprio
      rw [hy.bits, bits_enqueueFinish, bits_setQueue, htask, hs₁, bits_modify, bits_dequeueTask]
      by_cases hnil : remove p s.queues (array, (s.task p).prio) = []
      · by_cases hrt : (s.task p).RtTask
        · rw [if_neg fun hc => hc.2 hrt, if_pos hnil, yieldPrio_of_stay (.inl hrt),
            Function.update_idem, ← hbit, Function.update_eq_self]
        · rw [if_pos ⟨hnil, hrt⟩, if_pos hnil]
      · rw [if_neg fun hc => hnil hc.1, if_neg hnil, yieldPrio_of_stay (.inr hnil), ← hbit,
          Function.update_eq_self]
    · rw [hy.nrActives, nrActives_enqueueFinish, nrActives_setQueue, hs₁, nrActives_modify,
        nrActives_dequeueTask]
      simp
  · rw [hy.task, enqueueFinish_task]
    change _ = Function.update s₁.task p { s₁.task p with array := some array }
    simp [hs₁, ← hp]
  · rw [hy.ptrs, hs₁, modify_rq, dequeueTask_ptrs]
    omega
  · rw [hy.ptrs, hs₁, modify_rq, dequeueTask_ptrs]
  · rw [hy.ptrs, hs₁, modify_rq, dequeueTask_ptrs]

end Sys
end ShortSched
