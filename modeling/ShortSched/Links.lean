import Mathlib.Data.Set.Insert
import ShortSched.TaskList

/-!
# Queue entries and the field `array`

`arraysOf` are the arrays in which a task is linked, and `array` is where the task says it is.
Every operation changes the two together, whatever the flags, bitmaps and counters say:
`LinkStep` lists the ways, task by task.
-/

namespace ShortSched

open General Sys

/-! ## Where a task is linked -/

/-- The arrays of a family of queues in which a task is linked. -/
def arraysOf (t : TaskId) (Q : PrioArrayPtr × ℤ → List TaskId) : Set PrioArrayPtr :=
  {array | ∃ prio, t ∈ Q (array, prio)}

section arraysOf

variable {t p : TaskId} {array : PrioArrayPtr} {prio : ℤ} {Q Q' : PrioArrayPtr × ℤ → List TaskId}

theorem arraysOf_remove_self : arraysOf t (remove t Q) = ∅ := by
  ext a
  simp [arraysOf]

theorem arraysOf_remove_of_ne (ht : t ≠ p) : arraysOf t (remove p Q) = arraysOf t Q := by
  ext a
  simp [arraysOf, ht]

theorem arraysOf_insert_self (h : InsertedAt p (array, prio) Q Q') :
    arraysOf p Q' ⊆ insert array (arraysOf p Q) := by
  rintro a ⟨k, hk⟩
  by_cases ha : (a, k) = (array, prio)
  · exact .inl (Prod.mk.inj ha).1
  · rw [h.other _ ha] at hk
    exact .inr ⟨k, hk⟩

/-- The insertion of a task links no other. -/
theorem arraysOf_insert_of_ne (h : InsertedAt p (array, prio) Q Q') (ht : t ≠ p) :
    arraysOf t Q' ⊆ arraysOf t Q := by
  rintro a ⟨k, hk⟩
  by_cases ha : (a, k) = (array, prio)
  · rw [ha, h.perm.mem_iff, List.mem_cons] at hk
    rw [← ha] at hk
    exact ⟨k, hk.resolve_left ht⟩
  · rw [h.other _ ha] at hk
    exact ⟨k, hk⟩

end arraysOf

/-! ## The ways in which a task is moved -/

/-- No new entry and the same `array`. -/
structure Kept (t : TaskId) (s s' : Sys) : Prop where
  entries : arraysOf t s'.queues ⊆ arraysOf t s.queues
  array : (s'.task t).array = (s.task t).array

/-- No entry and no `array`. -/
structure Unlinked (t : TaskId) (s' : Sys) : Prop where
  entries : arraysOf t s'.queues ⊆ ∅
  array : (s'.task t).array = none

/-- Entries in one array only, which is that of the field. -/
structure MovedTo (array : PrioArrayPtr) (t : TaskId) (s' : Sys) : Prop where
  entries : arraysOf t s'.queues ⊆ {array}
  array : (s'.task t).array = some array

/-- A new entry in the array of the field, while older ones stay. -/
structure AddedTo (array : PrioArrayPtr) (t : TaskId) (s s' : Sys) : Prop where
  entries : arraysOf t s'.queues ⊆ insert array (arraysOf t s.queues)
  array : (s'.task t).array = some array

section shapes

variable {s s' s'' : Sys} {t p : TaskId} {array : PrioArrayPtr}

theorem Kept.of_eq (hqueues : s'.queues = s.queues)
    (harray : (s'.task t).array = (s.task t).array) : Kept t s s' :=
  ⟨by rw [hqueues], harray⟩

theorem Kept.of_rq (hrq : s'.rq = s.rq) (harray : (s'.task t).array = (s.task t).array) :
    Kept t s s' := by
  refine .of_eq ?_ harray
  ext l
  rw [queues, queue, hrq]
  rfl

theorem Kept.refl (t : TaskId) (s : Sys) : Kept t s s := .of_eq rfl rfl

theorem Kept.trans (h : Kept t s s') (h' : Kept t s' s'') : Kept t s s'' :=
  ⟨h'.entries.trans h.entries, h'.array.trans h.array⟩

theorem Unlinked.kept (h : Unlinked t s) (h' : Kept t s s') : Unlinked t s' :=
  ⟨h'.entries.trans h.entries, h'.array.trans h.array⟩

theorem MovedTo.kept (h : MovedTo array t s) (h' : Kept t s s') : MovedTo array t s' :=
  ⟨h'.entries.trans h.entries, h'.array.trans h.array⟩

theorem AddedTo.kept (h : AddedTo array t s s') (h' : Kept t s' s'') : AddedTo array t s s'' :=
  ⟨h'.entries.trans h.entries, h'.array.trans h.array⟩

theorem AddedTo.of_kept (h : Kept t s s') (h' : AddedTo array t s' s'') : AddedTo array t s s'' :=
  ⟨h'.entries.trans (Set.insert_subset_insert h.entries), h'.array⟩

/-- An entry added where there is none. -/
theorem AddedTo.movedTo (h : AddedTo array t s s') (hnone : arraysOf t s.queues ⊆ ∅) :
    MovedTo array t s' := by
  refine ⟨h.entries.trans (Set.insert_subset_insert hnone |>.trans ?_), h.array⟩
  rw [LawfulSingleton.insert_empty_eq]

theorem kept_modify {f : Task → Task} (hf : (f (s.task p)).array = (s.task p).array) :
    Kept t s (s.modify p f) :=
  .of_eq rfl (modify_proj (fun t => t.array) hf t)

end shapes

namespace Sys

variable {s s' : Sys} {t p : TaskId} {array : PrioArrayPtr}

/-! ## `dequeue_task` and `enqueue_task` -/

theorem kept_dequeueTask (array : PrioArrayPtr) (ht : t ≠ p) : Kept t s (s.dequeueTask p array) := by
  refine ⟨?_, by rw [dequeueTask_task]⟩
  rw [queues_dequeueTask, arraysOf_remove_of_ne ht]

theorem entries_dequeueTask (p : TaskId) (array : PrioArrayPtr) (s : Sys) :
    arraysOf p (s.dequeueTask p array).queues ⊆ ∅ := by
  rw [queues_dequeueTask, arraysOf_remove_self]

theorem insertedAt_enqueueTail (p : TaskId) (array : PrioArrayPtr) (s : Sys) :
    InsertedAt p (array, (s.task p).prio) s.queues (s.enqueueTail p array).queues := by
  rw [queues_enqueueTail]
  exact insertedAt_enqueueBack p _ s.queues

theorem addedTo_enqueueTail (p : TaskId) (array : PrioArrayPtr) (s : Sys) :
    AddedTo array p s (s.enqueueTail p array) := by
  refine ⟨arraysOf_insert_self (insertedAt_enqueueTail p array s), ?_⟩
  rw [enqueueTail_task, Function.update_self]

theorem kept_enqueueTail (array : PrioArrayPtr) (ht : t ≠ p) : Kept t s (s.enqueueTail p array) := by
  refine ⟨arraysOf_insert_of_ne (insertedAt_enqueueTail p array s) ht, ?_⟩
  rw [enqueueTail_task, Function.update_of_ne ht]

/-- `enqueue_task` links its task and the tasks it pulls along, which it takes out first. -/
theorem entries_enqueueTaskRec (n : ℕ) (p : TaskId) (array : PrioArrayPtr) (s : Sys) (t : TaskId) :
    arraysOf t (s.enqueueTaskRec n p array).queues ⊆
      if t ∈ s.pulledRec n p then {array}
      else if t = p then insert array (arraysOf t s.queues)
      else arraysOf t s.queues := by
  induction n generalizing s p with
  | zero =>
    rw [pulledRec, if_neg List.not_mem_nil]
    split
    · next ht => exact ht ▸ (addedTo_enqueueTail p array s).entries
    · next ht => exact (kept_enqueueTail array ht).entries
  | succ n ih =>
    unfold enqueueTaskRec pulledRec
    by_cases hbranch : s.ForkBranch p
    swap
    · rw [if_neg hbranch, if_neg hbranch, if_neg List.not_mem_nil]
      split
      · next ht => exact ht ▸ (addedTo_enqueueTail p array s).entries
      · next ht => exact (kept_enqueueTail array ht).entries
    rw [if_pos hbranch, if_pos hbranch]
    set parent := (s.task p).pOpptr
    set s₁ := s.modify parent fun t => { t with justGotForked := 0 } with hs₁
    set s₂ := s₁.dequeueTask parent array with hs₂
    have hforks : SameForks s₁ s₂ :=
      .of_task (dequeueTask_task _ _ _) (by rw [hs₂, dequeueTask_ptrs]) (dequeueTask_tasklist _ _ _)
    have hrec := ih parent s₂
    rw [hforks.pulledRec_eq] at hrec
    set s₃ := enqueueTaskRec n parent array s₂
    -- the entries of `t` when the parents are queued
    have hentries : arraysOf t s₃.queues ⊆
        if t ∈ parent :: s₁.pulledRec n parent then {array} else arraysOf t s.queues := by
      apply hrec.trans
      by_cases ht : t = parent
      · have hmem : t ∈ parent :: s₁.pulledRec n parent := by
          rw [ht]
          exact List.mem_cons_self
        rw [if_pos hmem, if_pos ht]
        split
        · exact subset_rfl
        · have hnone : arraysOf t s₂.queues ⊆ ∅ := by
            rw [ht]
            exact entries_dequeueTask parent array s₁
          refine (Set.insert_subset_insert hnone).trans ?_
          rw [LawfulSingleton.insert_empty_eq]
      · have hmem : t ∈ parent :: s₁.pulledRec n parent ↔ t ∈ s₁.pulledRec n parent := by
          simp [ht]
        rw [if_neg ht]
        simp only [hmem]
        split
        · exact subset_rfl
        · exact (kept_dequeueTask (s := s₁) array ht).entries
    have hins : InsertedAt p (array, (s.task p).prio) s₃.queues
        ((s₃.listAdd p array (s.task p).prio).enqueueFinish p array).queues := by
      rw [queues_enqueueFinish, listAdd, queues_setQueue]
      exact insertedAt_enqueueFront p _ s₃.queues
    have hprio : (s₃.task p).prio = (s.task p).prio := by
      have hsched := ((sameFrame_dequeueTask s₁ parent array).trans
        (sameFrame_enqueueTaskRec s₂ parent array n)).sched p
      rw [hsched, hs₁]
      exact modify_proj (fun t => t.prio) rfl p
    show arraysOf t ((s₃.listAdd p array (s₃.task p).prio).enqueueFinish p array).queues ⊆ _
    rw [hprio]
    by_cases ht : t = p
    · subst ht
      rw [if_pos rfl]
      refine (arraysOf_insert_self hins).trans ((Set.insert_subset_insert hentries).trans ?_)
      split
      · simp
      · exact subset_rfl
    · rw [if_neg ht]
      exact (arraysOf_insert_of_ne hins ht).trans hentries

/-- What queueing `p` in an array means for a task `t`. -/
inductive Enqueued (p : TaskId) (array : PrioArrayPtr) (t : TaskId) (s s' : Sys) : Prop
  | pulled (ht : t ∈ s.pulled p) (h : MovedTo array t s')
  | self (ht : t = p) (h : AddedTo array t s s')
  | other (ht : t ≠ p) (h : Kept t s s')

theorem Enqueued.kept {s'' : Sys} (h : Enqueued p array t s s') (h' : Kept t s' s'') :
    Enqueued p array t s s'' := by
  cases h with
  | pulled ht h => exact .pulled ht (h.kept h')
  | self ht h => exact .self ht (h.kept h')
  | other ht h => exact .other ht (h.trans h')

theorem Enqueued.of_kept {s'' : Sys} (h : Kept t s s') (hforks : SameForks s s')
    (h' : Enqueued p array t s' s'') : Enqueued p array t s s'' := by
  cases h' with
  | pulled ht h' => exact .pulled (hforks.pulled_eq ▸ ht) h'
  | self ht h' => exact .self ht (.of_kept h h')
  | other ht h' => exact .other ht (h.trans h')

/-- **`enqueue_task`** links the task and those that it pulls along, all in one array. -/
theorem enqueueTask_links (p : TaskId) (array : PrioArrayPtr) (s : Sys) (t : TaskId) :
    Enqueued p array t s (s.enqueueTask p array) := by
  have hentries : arraysOf t (s.enqueueTask p array).queues ⊆ if t ∈ s.pulled p then {array}
      else if t = p then insert array (arraysOf t s.queues) else arraysOf t s.queues :=
    entries_enqueueTaskRec s.tasklist.length p array s t
  have harray : ((s.enqueueTask p array).task t).array =
      if t = p ∨ t ∈ s.pulled p then some array else (s.task t).array := by
    rw [enqueueTask_task]
  by_cases hpulled : t ∈ s.pulled p
  · rw [if_pos hpulled] at hentries
    rw [if_pos (.inr hpulled)] at harray
    exact .pulled hpulled ⟨hentries, harray⟩
  rw [if_neg hpulled] at hentries
  by_cases ht : t = p
  · rw [if_pos ht] at hentries
    rw [if_pos (.inl ht)] at harray
    exact .self ht ⟨hentries, harray⟩
  · rw [if_neg ht] at hentries
    rw [if_neg (not_or.mpr ⟨ht, hpulled⟩)] at harray
    exact .other ht ⟨hentries, harray⟩

/-! ## The operations of the scheduler -/

/-- `pointerToMyActivePrioArray` never points to the expired array. -/
theorem pointer_ne_expired (p : TaskSched) (q : RqPtrs) :
    pointerToMyActivePrioArray p q ≠ q.expired := by
  obtain ⟨hactive, hrtShort, hoverdue, -⟩ := ptrs_ne q
  unfold pointerToMyActivePrioArray
  split
  · exact hrtShort
  split
  · exact hoverdue
  · exact hactive

/-- A pass of `schedule` may only take a task out. -/
theorem PassFrame.links (h : s.PassFrame s') (t : TaskId) : Kept t s s' ∨ Unlinked t s' := by
  by_cases hsleep : s.current.GoesToSleep
  · have hqueues := h.queues
    rw [if_pos hsleep] at hqueues
    by_cases ht : t = s.rq.curr
    · right
      refine ⟨?_, by rw [h.array, if_pos ⟨ht, hsleep⟩]⟩
      rw [hqueues, ht, arraysOf_remove_self]
    · left
      refine ⟨?_, by rw [h.array, if_neg fun hc => ht hc.1]⟩
      rw [hqueues, arraysOf_remove_of_ne ht]
  · left
    refine .of_eq ?_ ?_
    · rw [h.queues, if_neg hsleep]
    · rw [h.array, if_neg fun hc => hsleep hc.2]

/-- `schedule` unlinks the tasks that go to sleep, and no more. -/
theorem schedule_links (h : s.schedule = some s') (t : TaskId) : Kept t s s' ∨ Unlinked t s' := by
  have hpass : ∀ s₁ s₂ : Sys, Kept t s s₁ ∨ Unlinked t s₁ → s₁.schedulePass = some s₂ →
      Kept t s s₂ ∨ Unlinked t s₂ := by
    intro s₁ s₂ hs hpass
    rcases (schedulePass_frame hpass).links t with hkept | hnone
    · exact hs.imp (fun h => h.trans hkept) fun h => h.kept hkept
    · exact .inr hnone
  exact scheduleLoop_induct hpass h (.inl (.refl t s))

/-- A yield queues its task again in the array it is in. -/
theorem YieldFrame.movedTo (h : YieldFrame p array s s') (harray : (s.task p).array = some array) :
    MovedTo array p s' := by
  obtain ⟨l, hl, hqueues⟩ := h.queues
  refine ⟨?_, ?_⟩
  · rw [hqueues]
    refine (arraysOf_insert_self (.of_update hl)).trans ?_
    rw [arraysOf_remove_self, LawfulSingleton.insert_empty_eq]
  · rw [h.task, Function.update_self]
    exact harray

theorem YieldFrame.kept (h : YieldFrame p array s s') (ht : t ≠ p) : Kept t s s' := by
  obtain ⟨l, hl, hqueues⟩ := h.queues
  refine ⟨?_, ?_⟩
  · rw [hqueues]
    refine (arraysOf_insert_of_ne (.of_update hl) ht).trans ?_
    rw [arraysOf_remove_of_ne ht]
  · rw [h.task, Function.update_of_ne ht]

/-- `dequeue_task` and later `enqueue_task`. -/
theorem movedTo_enqueueTail {s₁ : Sys} (hqueues : s₁.queues = remove p s.queues) :
    MovedTo array p (s₁.enqueueTail p array) := by
  refine (addedTo_enqueueTail p array s₁).movedTo ?_
  rw [hqueues, arraysOf_remove_self]

theorem entries_enqueueTail_of_ne {s₁ : Sys} (hqueues : s₁.queues = remove p s.queues)
    (ht : t ≠ p) : arraysOf t (s₁.enqueueTail p array).queues ⊆ arraysOf t s.queues := by
  refine (kept_enqueueTail array ht).entries.trans ?_
  rw [hqueues, arraysOf_remove_of_ne ht]

variable [Param]

theorem activateTask_links (p : TaskId) (s : Sys) (t : TaskId) :
    Enqueued p (pointerToMyActivePrioArray (s.task p).toTaskSched s.rq.toRqPtrs) t s
      (s.activateTask p) := by
  have hwoken : Kept t s (s.modify p (Task.woken s.jiffies)) := kept_modify (Task.woken_frame _ _).1
  rw [activateTask_eq]
  exact (Enqueued.of_kept hwoken (sameForks_woken p s) (enqueueTask_links _ _ _ _)).kept
    (.of_eq rfl rfl)

omit [Param] in
theorem queues_wakePrepare (p : TaskId) (sync : Bool) (s : Sys) :
    (s.wakePrepare p sync).queues = s.queues := by
  unfold wakePrepare
  split <;> split <;> rfl

omit [Param] in
theorem queues_wakeFinish (p : TaskId) (s : Sys) : (s.wakeFinish p).queues = s.queues := by
  unfold wakeFinish
  split <;> rfl

/-- `try_to_wake_up` links a task that sleeps. -/
theorem tryToWakeUp_links (p : TaskId) (sync : Bool) (s : Sys) (t : TaskId) :
    Kept t s (s.tryToWakeUp p sync).2 ∨ (s.task p).array = none ∧
      Enqueued p (pointerToMyActivePrioArray (s.task p).toTaskSched s.rq.toRqPtrs) t s
        (s.tryToWakeUp p sync).2 := by
  by_cases hasleep : (s.task p).array = none
  · right
    have hsame := sameTasks_wakePrepare p sync s
    have hptr : pointerToMyActivePrioArray ((s.wakePrepare p sync).task p).toTaskSched
        (s.wakePrepare p sync).rq.toRqPtrs =
          pointerToMyActivePrioArray (s.task p).toTaskSched s.rq.toRqPtrs := by
      rw [hsame.sched, wakePrepare]
      split <;> split <;> rfl
    have hactivate := activateTask_links p (s.wakePrepare p sync) t
    rw [hptr] at hactivate
    rw [tryToWakeUp_of_sleeping hasleep]
    refine ⟨hasleep, .of_kept ?_ (sameForks_wakePrepare p sync s) (hactivate.kept ?_)⟩
    · exact .of_eq (queues_wakePrepare p sync s) (hsame.array t)
    · exact .of_eq (queues_wakeFinish p _) ((sameTasks_wakeFinish p _).array t)
  · left
    rw [tryToWakeUp_of_queued hasleep]
    exact kept_modify rfl

/-- Where a tick queues a task: in the array of its class, or an OTHER task in `expired`. -/
def TickArray (q : RqPtrs) (p : TaskSched) (array : PrioArrayPtr) : Prop :=
  array = pointerToMyActivePrioArray p q ∨ p.OtherTask ∧ array = q.expired

/-- A tick moves `current` only, to an array that fits its class. -/
theorem schedulerTick_links (s : Sys) (t : TaskId) : Kept t s s.schedulerTick ∨
    t = s.rq.curr ∧ ∃ array, MovedTo array t s.schedulerTick ∧
      TickArray s.rq.toRqPtrs (s.schedulerTick.task t).toTaskSched array := by
  have hexpire : s.expireState.queues = remove s.rq.curr s.queues := queues_dequeueTask _ _ _
  have hstamp : s.expireState.stampExpired.queues = remove s.rq.curr s.queues := by
    rw [← hexpire]
    unfold stampExpired
    split <;> rfl
  have hrefill : ((s.rrRefill s.rq.curr).dequeueTask s.rq.curr s.rq.rtShort).queues =
      remove s.rq.curr s.queues := queues_dequeueTask _ _ _
  have hcase := s.schedulerTick_cases
  by_cases ht : t = s.rq.curr
  · subst ht
    generalize s.schedulerTick = s' at hcase ⊢
    cases hcase with
    | idle | fifo => exact .inl (.refl _ s)
    | expired | rr => exact .inl (kept_modify rfl)
    | run => exact .inl (kept_modify (Task.tick_frame _).1)
    | rrRefill _ hrt =>
      refine .inr ⟨rfl, _, movedTo_enqueueTail hrefill, .inl (Eq.symm ?_)⟩
      apply pointer_of_rtTask _
      simpa [rrRefill, setTskNeedResched] using hrt
    | toExpired _ _ _ hto =>
      refine .inr ⟨rfl, _, movedTo_enqueueTail hstamp, .inr ⟨?_, rfl⟩⟩
      simpa [stampExpired_task] using hto.1
    | requeue =>
      refine .inr ⟨rfl, _, movedTo_enqueueTail hexpire, .inl ?_⟩
      rw [enqueueTail_task, Function.update_self]
  · left
    have htask := schedulerTick_task_of_ne ht
    generalize s.schedulerTick = s' at hcase htask ⊢
    refine ⟨?_, by rw [htask]⟩
    cases hcase with
    | idle | fifo | expired | rr | run => exact subset_rfl
    | rrRefill => exact entries_enqueueTail_of_ne hrefill ht
    | toExpired => exact entries_enqueueTail_of_ne hstamp ht
    | requeue => exact entries_enqueueTail_of_ne hexpire ht

/-- A SHORT task that uses up its slice goes to the tail of the overdue queue. -/
theorem queues_schedulerTick_toOverdue (hcharged : s.Charged) (hrt : ¬s.current.RtTask)
    (hshort : s.current.ShortTask) (hslice : s.current.timeSlice = 1) :
    s.schedulerTick.queues =
      enqueueBack s.rq.curr (s.rq.overdue, overduePrio) (remove s.rq.curr s.queues) := by
  have hlast : s.current.timeSlice - 1 = 0 := sub_one_eq_zero.mpr hslice
  have hshort' : s.current.tick.ShortTask := by rwa [Task.tick_sched]
  have hnew := (expireState_sched s).trans (Task.expire_short hshort')
  have hcase := s.schedulerTick_cases
  generalize s.schedulerTick = s' at hcase ⊢
  cases hcase with
  | idle h => exact absurd h hcharged.1
  | expired _ h => exact absurd h hcharged.2
  | fifo _ h | rr _ h | rrRefill _ h => exact absurd h hrt
  | run _ _ h => exact absurd hlast h
  | toExpired _ _ _ hto =>
    have hother := hto.1
    rw [hnew] at hother
    exact absurd (hother.symm.trans hshort'.1) (by decide)
  | requeue =>
    have hclass : (s.expireState.task s.rq.curr).OverdueTask := by
      rw [hnew]
      exact ⟨hshort'.1, rfl⟩
    have hprio : (s.expireState.task s.rq.curr).prio = overduePrio := by rw [hnew]
    have hqueues : s.expireState.queues = remove s.rq.curr s.queues :=
      queues_dequeueTask (s.modify s.rq.curr Task.tick) s.rq.curr _
    have hrt' : ¬(s.expireState.task s.rq.curr).RtTask := by
      have hge : ¬overduePrio < maxRtPrio := by decide
      show ¬(s.expireState.task s.rq.curr).prio < maxRtPrio
      rwa [hprio]
    rw [queues_enqueueTail, hprio, hqueues, pointer_of_overdueTask _ hclass hrt']

omit [Param] in
/-- `set_user_nice` moves its target and the tasks that it pulls along. -/
theorem setUserNice_links (p : TaskId) (nice : ℤ) (s : Sys) (t : TaskId) :
    Kept t s (s.setUserNice p nice) ∨ (t = p ∨ (s.task t).justGotForked ≠ 0) ∧
      ∃ array, MovedTo array t (s.setUserNice p nice) := by
  have hqueued : ∀ array, Kept t s (s.reniceQueued p nice array) ∨
      (t = p ∨ (s.task t).justGotForked ≠ 0) ∧ MovedTo array t (s.reniceQueued p nice array) := by
    intro array
    cases enqueueTask_links p array ((s.dequeueTask p array).modify p (setNice nice)) t with
    | pulled ht h =>
      rw [(sameForks_setNice p nice array s).pulled_eq] at ht
      exact .inr ⟨.inr (justGotForked_of_mem_pulled ht), h⟩
    | self ht h =>
      subst ht
      exact .inr ⟨.inl rfl, h.movedTo (entries_dequeueTask t array s)⟩
    | other ht h =>
      have hsame : Kept t (s.dequeueTask p array)
          ((s.dequeueTask p array).modify p (setNice nice)) := kept_modify rfl
      exact .inl ((kept_dequeueTask array ht).trans (hsame.trans h))
  have hcase := s.setUserNice_cases p nice
  generalize s.setUserNice p nice = s' at hcase ⊢
  cases hcase with
  | same => exact .inl (.refl t s)
  | rt | overdue | sleeping => exact .inl (kept_modify rfl)
  | queued => exact (hqueued _).imp_right fun h => ⟨h.1, _, h.2⟩
  | queuedResched =>
    rcases hqueued _ with h | ⟨ht, h⟩
    · exact .inl (h.trans (kept_modify rfl))
    · exact .inr ⟨ht, _, h.kept (kept_modify rfl)⟩

/-- `requeue` queues its target, and the tasks it pulls along, by the new class of the target. -/
theorem requeued_links {f : Task → Task} (p : TaskId) (s : Sys) (t : TaskId)
    (hf : ∀ u : Task, (f u).array = u.array ∧ (f u).justGotForked = u.justGotForked) :
    Kept t s (s.requeued p f) ∨ (t = p ∨ (s.task t).justGotForked ≠ 0) ∧
      ∃ array, array ≠ s.rq.expired ∧ MovedTo array t (s.requeued p f) := by
  unfold requeued
  cases harray : (s.task p).array with
  | none => exact .inl (kept_modify (hf _).1)
  | some array =>
    dsimp only
    set s₁ := ((s.dropRunning p).dequeueTask p array).modify p fun t => { t with array := none }
      with hs₁
    have hne : pointerToMyActivePrioArray ((s₁.modify p f).task p).toTaskSched s₁.rq.toRqPtrs ≠
        s.rq.expired := by
      have hexpired : s₁.rq.expired = s.rq.expired := by
        rw [hs₁, modify_rq, dequeueTask_ptrs]
        rfl
      rw [← hexpired]
      exact pointer_ne_expired _ _
    have hflag : ((s₁.modify p f).task t).justGotForked = (s.task t).justGotForked := by
      rw [modify_proj (fun t => t.justGotForked) (hf _).2, hs₁,
        modify_proj (fun t => t.justGotForked) rfl, dequeueTask_task]
      rfl
    cases activateTask_links p (s₁.modify p f) t with
    | pulled ht h =>
      have hraised := justGotForked_of_mem_pulled ht
      rw [hflag] at hraised
      exact .inr ⟨.inr hraised, _, hne, h⟩
    | self ht h =>
      subst ht
      exact .inr ⟨.inl rfl, _, hne, h.movedTo (entries_dequeueTask t array (s.dropRunning t))⟩
    | other ht h =>
      have hdrop : Kept t s (s.dropRunning p) := .of_eq rfl rfl
      have hnone : Kept t ((s.dropRunning p).dequeueTask p array) s₁ := by
        refine .of_eq rfl ?_
        rw [hs₁, modify_task, Function.update_of_ne ht]
      exact .inl ((hdrop.trans (kept_dequeueTask array ht)).trans
        ((hnone.trans (kept_modify (hf _).1)).trans h))

/-- `setscheduler` does not use the expired array. -/
theorem setscheduler_links {pid policy : ℤ} {param : UserParam} {r : ℤ}
    (h : s.setscheduler pid policy param = some (r, s')) (t : TaskId) :
    Kept t s s' ∨ ((∃ lp, Target s pid param t lp) ∨ (s.task t).justGotForked ≠ 0) ∧
      ∃ array, array ≠ s.rq.expired ∧ MovedTo array t s' := by
  cases SetschedCase.of_eq_some h with
  | refused _ hsame => exact .inl (.of_rq hsame.rq (hsame.sameTasks.array t))
  | @adjusted p lp =>
    have hadjust : Kept t s (s.modify p (Task.adjustShort lp)) := kept_modify rfl
    exact .inl (hadjust.trans (kept_modify rfl))
  | @madeShort p lp target =>
    rcases requeued_links (f := Task.makeShort lp) p s t fun _ => ⟨rfl, rfl⟩ with
      h | ⟨ht, array, hne, h⟩
    · exact .inl (h.trans (kept_modify rfl))
    · refine .inr ⟨ht.imp_left ?_, array, hne, h.kept (kept_modify rfl)⟩
      rintro rfl
      exact ⟨lp, target⟩
  | @changed p lp policy' s₁ target _ _ _ _ hsame =>
    have hbefore : Kept t s s₁ := .of_rq hsame.rq (hsame.sameTasks.array t)
    rcases requeued_links (f := Task.setPolicy policy' lp) p s₁ t fun _ => ⟨rfl, rfl⟩ with
      h | ⟨ht, array, hne, h⟩
    · exact .inl (hbefore.trans h)
    · rw [hsame.sameTasks.justGotForked] at ht
      rw [hsame.rq] at hne
      refine .inr ⟨ht.imp_left ?_, array, hne, h⟩
      rintro rfl
      exact ⟨lp, target⟩

omit [Param] in
/-- A task that yields stays in its array, or goes to sleep. -/
theorem sysSchedYield_links (h : s.sysSchedYield = some s') (t : TaskId) :
    Kept t s s' ∨ Unlinked t s' ∨
      t = s.rq.curr ∧ ∃ array, (s.task t).array = some array ∧ MovedTo array t s' := by
  unfold sysSchedYield at h
  simp only [Option.bind_eq_bind, Option.bind_eq_some_iff] at h
  obtain ⟨s₁, hyield, hsched⟩ := h
  obtain ⟨array, harray, hframe⟩ := yieldRequeue_eq_some hyield
  rcases schedule_links hsched t with hkept | hnone
  · by_cases ht : t = s.rq.curr
    · subst ht
      exact .inr (.inr ⟨rfl, array, harray, (hframe.movedTo harray).kept hkept⟩)
    · exact .inl ((hframe.kept ht).trans hkept)
  · exact .inr (.inl hnone)

/-! ## Forks -/

/-- The split moves nothing but a parent that gets the synthetic tick. -/
theorem forked_links {f : PendingFork} (hne : f.child ≠ s.rq.curr) (t : TaskId) :
    Kept t s (s.forked f) ∨
      t = s.rq.curr ∧ ∃ array, MovedTo array t (s.forked f) ∧
        TickArray s.rq.toRqPtrs ((s.forked f).task t).toTaskSched array := by
  have hsplit : Kept t s (s.forkSplit f) := by
    refine .of_eq rfl ?_
    by_cases ht : t = f.child
    · rw [ht, forkSplit_child hne, (Task.forkChild_frame _ _ _).1]
    by_cases hcurr : t = s.rq.curr
    · rw [hcurr, forkSplit_current hne, Task.parentSplit_eq]
    · rw [forkSplit_of_ne ht hcurr]
  have hforked : (s.forked f).queues = (s.forkSplit f).lastJiffy.queues := rfl
  have htask : (s.forked f).task = (s.forkSplit f).lastJiffy.task := rfl
  rw [lastJiffy_eq] at hforked htask
  by_cases hslice : (s.forkSplit f).current.timeSlice = 0
  · rw [if_pos hslice] at hforked htask
    have hlast : Kept t (s.forkSplit f) ((s.forkSplit f).modify (s.forkSplit f).rq.curr
      Task.lastJiffy) := kept_modify rfl
    rcases schedulerTick_links ((s.forkSplit f).modify (s.forkSplit f).rq.curr
      Task.lastJiffy) t with h | ⟨ht, array, h, htick⟩
    · exact .inl ((hsplit.trans hlast).trans (h.trans (.of_eq hforked (by rw [htask]))))
    · refine .inr ⟨ht, array, h.kept (.of_eq hforked (by rw [htask])), ?_⟩
      rw [htask]
      exact htick
  · rw [if_neg hslice] at hforked htask
    exact .inl (hsplit.trans (.of_eq hforked (by rw [htask])))

/-- The end of a fork links the child, and moves parents whose flag is raised. -/
theorem doForkWake_links (h : s.doForkWake = some s') (t : TaskId) : ∃ f, s.forking = some f ∧
    (Kept t s s' ∨ ∃ array, array ≠ s.rq.expired ∧
      ((s.task t).justGotForked ≠ 0 ∧ MovedTo array t s' ∨
        t = f.child ∧ ((s.task t).ShortTask → array = s.rq.rtShort) ∧ AddedTo array t s s')) := by
  obtain ⟨f, hf, rfl⟩ := doForkWake_eq_some h
  have hprep := forkPrepared f s
  have hbefore : Kept t s (s.forkPrepare f) := .of_rq hprep.rq (hprep.array t)
  have hafter : ∀ s : Sys, Kept t s (s.forkOut f.cloneFlags) := fun s =>
    .of_rq (forkOut_rq _ s) ((sameTasks_forkOut _ s).array t)
  refine ⟨f, hf, ?_⟩
  have hne := pointer_ne_expired ((s.forkPrepare f).task f.child).toTaskSched s.rq.toRqPtrs
  have hlinks := activateTask_links f.child (s.forkPrepare f) t
  rw [hprep.rq] at hlinks
  cases hlinks with
  | pulled ht h =>
    have hraised := justGotForked_of_mem_pulled ht
    rw [hprep.justGotForked] at hraised
    exact .inr ⟨_, hne, .inl ⟨hraised, h.kept (hafter _)⟩⟩
  | self ht h =>
    refine .inr ⟨_, hne, .inr ⟨ht, fun hshort => ?_, (AddedTo.of_kept hbefore h).kept (hafter _)⟩⟩
    subst ht
    obtain ⟨sleepAvg, hsched⟩ := hprep.child_sched
    have hclass : ((s.forkPrepare f).task f.child).ShortTask := by
      rw [hsched]
      split <;> exact hshort
    exact if_pos (.inl hclass)
  | other _ h => exact .inl (hbefore.trans (h.trans (hafter _)))

end Sys

/-! ## The ways of every step -/

variable [Param] {s s' : Sys} {op : Op} {t : TaskId}

/-- How a step moves one task. -/
inductive LinkStep (s : Sys) (t : TaskId) : Op → Sys → Prop
  | kept (op : Op) {s' : Sys} (h : Kept t s s') : LinkStep s t op s'
  | unlinked (op : Op) {s' : Sys} (hop : op = .schedule ∨ op = .sysSchedYield)
      (h : Unlinked t s') : LinkStep s t op s'
  | woken (sync : Bool) {s' : Sys} (hasleep : (s.task t).array = none)
      (h : AddedTo (pointerToMyActivePrioArray (s.task t).toTaskSched s.rq.toRqPtrs) t s s') :
      LinkStep s t (.tryToWakeUp t sync) s'
  | forkWoken {f : PendingFork} {array : PrioArrayPtr} {s' : Sys} (hf : s.forking = some f)
      (ht : t = f.child) (hne : array ≠ s.rq.expired)
      (hshort : (s.task t).ShortTask → array = s.rq.rtShort) (h : AddedTo array t s s') :
      LinkStep s t .doForkWake s'
  | pulled (op : Op) {array : PrioArrayPtr} {s' : Sys} (hflag : (s.task t).justGotForked ≠ 0)
      (hne : array ≠ s.rq.expired ∨ ∃ p nice, op = .setUserNice p nice) (h : MovedTo array t s') :
      LinkStep s t op s'
  | yielded {array : PrioArrayPtr} {s' : Sys} (ht : t = s.rq.curr)
      (harray : (s.task t).array = some array) (h : MovedTo array t s') :
      LinkStep s t .sysSchedYield s'
  | ticked (op : Op) {array : PrioArrayPtr} {s' : Sys} (ht : t = s.rq.curr)
      (hop : op = .schedulerTick ∨ op = .doForkSplit)
      (h : MovedTo array t s') (htick : TickArray s.rq.toRqPtrs (s'.task t).toTaskSched array) :
      LinkStep s t op s'
  | reniced (nice : ℤ) {array : PrioArrayPtr} {s' : Sys} (h : MovedTo array t s') :
      LinkStep s t (.setUserNice t nice) s'
  | requeued {pid policy : ℤ} {param : UserParam} {lp : SchedParam} {array : PrioArrayPtr}
      {s' : Sys} (target : Target s pid param t lp) (h : MovedTo array t s') :
      LinkStep s t (.setscheduler pid policy param) s'

/-- **Every step** moves a task in one of these ways. -/
theorem step_links (h : Step s op s') (t : TaskId) : LinkStep s t op s' := by
  obtain ⟨hen, hexec⟩ := h
  cases op with
  | tryToWakeUp p sync =>
    obtain rfl := Option.some.inj hexec
    rcases tryToWakeUp_links p sync s t with hkept | ⟨hasleep, hlinks⟩
    · exact .kept _ hkept
    cases hlinks with
    | pulled ht h =>
      exact .pulled _ (justGotForked_of_mem_pulled ht) (.inl (pointer_ne_expired _ _)) h
    | self ht h =>
      subst ht
      exact .woken sync hasleep h
    | other _ h => exact .kept _ h
  | schedule =>
    rcases schedule_links hexec t with h | h
    · exact .kept _ h
    · exact .unlinked _ (.inl rfl) h
  | schedulerTick =>
    obtain rfl := Option.some.inj hexec
    rcases schedulerTick_links s t with h | ⟨ht, array, h, htick⟩
    · exact .kept _ h
    · exact .ticked _ ht (.inl rfl) h htick
  | setUserNice p nice =>
    obtain rfl := Option.some.inj hexec
    rcases setUserNice_links p nice s t with h | ⟨rfl | hflag, array, h⟩
    · exact .kept _ h
    · exact .reniced nice h
    · exact .pulled _ hflag (.inr ⟨p, nice, rfl⟩) h
  | setscheduler pid policy param =>
    obtain ⟨r, hr, rfl⟩ := Option.map_eq_some_iff.mp hexec
    rcases setscheduler_links hr t with h | ⟨⟨lp, target⟩ | hflag, array, hne, h⟩
    · exact .kept _ h
    · exact .requeued target h
    · exact .pulled _ hflag (.inl hne) h
  | sysSchedYield =>
    rcases sysSchedYield_links hexec t with h | h | ⟨ht, array, harray, h⟩
    · exact .kept _ h
    · exact .unlinked _ (.inr rfl) h
    · exact .yielded ht harray h
  | doFork cloneFlags env =>
    obtain rfl := Option.some.inj hexec
    rcases doFork_cases cloneFlags env s with ⟨-, hsame⟩ | ⟨-, hcopied⟩
    · rw [hsame]
      exact .kept _ (.refl t s)
    rw [hcopied]
    refine .kept _ (.of_rq rfl ?_)
    by_cases ht : t = env.child
    · rw [ht, copied_child, hen.2.not_queued]
      rfl
    · rw [copied_of_ne ht]
  | doForkSplit =>
    obtain ⟨f, -, -, -, hcopy, -, rfl⟩ := doForkSplit_step ⟨hen, hexec⟩
    rcases forked_links hcopy.ne_curr t with h | ⟨ht, array, h, htick⟩
    · exact .kept _ h
    · exact .ticked _ ht (.inr rfl) h htick
  | doForkWake =>
    obtain ⟨f, hf, h | ⟨array, hne, ⟨hflag, h⟩ | ⟨ht, hshort, h⟩⟩⟩ := doForkWake_links hexec t
    · exact .kept _ h
    · exact .pulled _ hflag (.inl hne) h
    · exact .forkWoken hf ht hne hshort h
  | vforkReturn =>
    obtain rfl := Option.some.inj hexec
    refine .kept _ ?_
    unfold vforkReturn
    split
    · exact kept_modify rfl
    · exact .refl t s
  | schedExit p =>
    obtain rfl := Option.some.inj hexec
    obtain ⟨timeSlice, sleepAvg, hreap⟩ := reapChild_eq (s.task p) s.current
    have hkept : Kept t s (s.schedExit p) := kept_modify (by rw [hreap])
    exact .kept _ (hkept.trans (.of_eq rfl rfl))
  | doExit reaper =>
    obtain rfl := Option.some.inj hexec
    refine .kept _ (.of_rq rfl ?_)
    rw [modify_proj (fun t => t.array) rfl]
    dsimp only
    split <;> rfl
  | setCurrentState | setSigpending =>
    obtain rfl := Option.some.inj hexec
    exact .kept _ (kept_modify rfl)
  | setJiffies =>
    obtain rfl := Option.some.inj hexec
    exact .kept _ (.of_eq rfl rfl)

end ShortSched
