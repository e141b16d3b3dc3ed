import ShortSched.Runqueue

/-!
# What the runqueue primitives change

Frame lemmas for the simp set: none of the primitives below `activate_task` touches a counter
or a pointer of the runqueue, and all that `enqueue_task` changes in a task are `array` and
`justGotForked`. Which tasks it changes is said by `pulled`: the tasks that the fork branch of
`enqueue_task` queues again along with the task that it was called for.
-/

namespace ShortSched
namespace Sys

open General

variable (s : Sys) (p t : TaskId) (array : PrioArrayPtr) (prio : ℤ)

/-! ## Field updates -/

@[simp] theorem modify_task (f : Task → Task) :
    (s.modify p f).task = Function.update s.task p (f (s.task p)) := rfl

@[simp] theorem modify_rq (f : Task → Task) : (s.modify p f).rq = s.rq := rfl
@[simp] theorem modify_jiffies (f : Task → Task) : (s.modify p f).jiffies = s.jiffies := rfl
@[simp] theorem modify_tasklist (f : Task → Task) : (s.modify p f).tasklist = s.tasklist := rfl
@[simp] theorem modify_forking (f : Task → Task) : (s.modify p f).forking = s.forking := rfl

/-- What an update of one task leaves alone in every task. -/
theorem modify_proj {α : Type*} (g : Task → α) {f : Task → Task} {s : Sys} {p : TaskId}
    (h : g (f (s.task p)) = g (s.task p)) (t : TaskId) :
    g ((s.modify p f).task t) = g (s.task t) := by
  rw [modify_task, Function.update_apply]
  split
  · next ht => rw [ht, h]
  · rfl

/-- The same update keeps two states alike. -/
theorem modify_congr {α : Type*} (g : Task → α) {f : Task → Task} {s s' : Sys} {p t : TaskId}
    (hf : ∀ a b, g a = g b → g (f a) = g (f b)) (h : g (s'.task t) = g (s.task t)) :
    g ((s'.modify p f).task t) = g ((s.modify p f).task t) := by
  rw [modify_task, modify_task, Function.update_apply, Function.update_apply]
  split
  · next ht => exact hf _ _ (ht ▸ h)
  · exact h

@[simp] theorem modifyRq_task (f : Runqueue → Runqueue) : (s.modifyRq f).task = s.task := rfl
@[simp] theorem modifyRq_rq (f : Runqueue → Runqueue) : (s.modifyRq f).rq = f s.rq := rfl
@[simp] theorem modifyRq_jiffies (f : Runqueue → Runqueue) :
    (s.modifyRq f).jiffies = s.jiffies := rfl
@[simp] theorem modifyRq_tasklist (f : Runqueue → Runqueue) :
    (s.modifyRq f).tasklist = s.tasklist := rfl
@[simp] theorem modifyRq_forking (f : Runqueue → Runqueue) :
    (s.modifyRq f).forking = s.forking := rfl

/-! ## Frames -/

/-- Two states that differ at most in the priority arrays and in `array` and `justGotForked`
of their tasks. -/
structure SameFrame (s s' : Sys) : Prop where
  ptrs : s'.rq.toRqPtrs = s.rq.toRqPtrs
  sched : ∀ t, (s'.task t).toTaskSched = (s.task t).toTaskSched
  info : ∀ t, (s'.task t).toTaskInfo = (s.task t).toTaskInfo
  jiffies : s'.jiffies = s.jiffies
  tasklist : s'.tasklist = s.tasklist
  forking : s'.forking = s.forking

namespace SameFrame

variable {s s' s'' : Sys}

theorem refl (s : Sys) : SameFrame s s :=
  ⟨rfl, fun _ => rfl, fun _ => rfl, rfl, rfl, rfl⟩

theorem trans (h : SameFrame s s') (h' : SameFrame s' s'') : SameFrame s s'' where
  ptrs := h'.ptrs.trans h.ptrs
  sched t := (h'.sched t).trans (h.sched t)
  info t := (h'.info t).trans (h.info t)
  jiffies := h'.jiffies.trans h.jiffies
  tasklist := h'.tasklist.trans h.tasklist
  forking := h'.forking.trans h.forking

end SameFrame

/-- An update that leaves the scheduling fields and the identity of a task alone. -/
theorem sameFrame_modify {f : Task → Task}
    (hsched : (f (s.task p)).toTaskSched = (s.task p).toTaskSched)
    (hinfo : (f (s.task p)).toTaskInfo = (s.task p).toTaskInfo) : SameFrame s (s.modify p f) where
  ptrs := rfl
  sched := modify_proj Task.toTaskSched hsched
  info := modify_proj Task.toTaskInfo hinfo
  jiffies := rfl
  tasklist := rfl
  forking := rfl

/-! ## `dequeue_task` -/

@[simp] theorem dequeueTask_task : (s.dequeueTask p array).task = s.task := by
  simp only [dequeueTask]
  split <;> rfl

theorem sameFrame_dequeueTask : SameFrame s (s.dequeueTask p array) := by
  simp only [dequeueTask]
  split
  · exact ⟨rfl, fun _ => rfl, fun _ => rfl, rfl, rfl, rfl⟩
  · exact ⟨rfl, fun _ => rfl, fun _ => rfl, rfl, rfl, rfl⟩

@[simp] theorem dequeueTask_ptrs : (s.dequeueTask p array).rq.toRqPtrs = s.rq.toRqPtrs :=
  (sameFrame_dequeueTask s p array).ptrs

@[simp] theorem dequeueTask_jiffies : (s.dequeueTask p array).jiffies = s.jiffies :=
  (sameFrame_dequeueTask s p array).jiffies

@[simp] theorem dequeueTask_tasklist : (s.dequeueTask p array).tasklist = s.tasklist :=
  (sameFrame_dequeueTask s p array).tasklist

@[simp] theorem dequeueTask_forking : (s.dequeueTask p array).forking = s.forking :=
  (sameFrame_dequeueTask s p array).forking

/-! ## `enqueue_task` -/

@[simp] theorem enqueueFinish_task : (s.enqueueFinish p array).task =
    Function.update s.task p { s.task p with array := some array } := rfl

/-- The writes at the end of `enqueue_task` stay in the runqueue. -/
theorem sameFrame_enqueueFinish : SameFrame s (s.enqueueFinish p array) where
  ptrs := rfl
  sched := modify_proj (s := s) (p := p) (f := fun t => { t with array := some array })
    Task.toTaskSched rfl
  info := modify_proj (s := s) (p := p) (f := fun t => { t with array := some array })
    Task.toTaskInfo rfl
  jiffies := rfl
  tasklist := rfl
  forking := rfl

theorem sameFrame_setQueue (l : List TaskId) : SameFrame s (s.setQueue array prio l) :=
  ⟨rfl, fun _ => rfl, fun _ => rfl, rfl, rfl, rfl⟩

theorem sameFrame_enqueueTail : SameFrame s (s.enqueueTail p array) :=
  (sameFrame_setQueue s array _ _).trans (sameFrame_enqueueFinish _ p array)

@[simp] theorem enqueueTail_task : (s.enqueueTail p array).task =
    Function.update s.task p { s.task p with array := some array } := rfl

@[simp] theorem enqueueTail_ptrs : (s.enqueueTail p array).rq.toRqPtrs = s.rq.toRqPtrs :=
  (sameFrame_enqueueTail s p array).ptrs

/-- So does the whole of it, however many tasks it pulls along. -/
theorem sameFrame_enqueueTaskRec (n : ℕ) : SameFrame s (s.enqueueTaskRec n p array) := by
  induction n generalizing s p with
  | zero => exact sameFrame_enqueueTail s p array
  | succ n ih =>
    rw [enqueueTaskRec]
    split
    · refine .trans ?_ (sameFrame_enqueueFinish _ p array)
      refine .trans ?_ (sameFrame_setQueue _ _ _ _)
      refine .trans ?_ (ih _ _)
      refine .trans ?_ (sameFrame_dequeueTask _ _ _)
      exact sameFrame_modify s _ rfl rfl
    · exact sameFrame_enqueueTail s p array

theorem sameFrame_enqueueTask : SameFrame s (s.enqueueTask p array) :=
  sameFrame_enqueueTaskRec s p array _

@[simp] theorem enqueueTask_ptrs : (s.enqueueTask p array).rq.toRqPtrs = s.rq.toRqPtrs :=
  (sameFrame_enqueueTask s p array).ptrs

@[simp] theorem enqueueTask_sched :
    ((s.enqueueTask p array).task t).toTaskSched = (s.task t).toTaskSched :=
  (sameFrame_enqueueTask s p array).sched t

@[simp] theorem enqueueTask_info :
    ((s.enqueueTask p array).task t).toTaskInfo = (s.task t).toTaskInfo :=
  (sameFrame_enqueueTask s p array).info t

@[simp] theorem enqueueTask_jiffies : (s.enqueueTask p array).jiffies = s.jiffies :=
  (sameFrame_enqueueTask s p array).jiffies

@[simp] theorem enqueueTask_tasklist : (s.enqueueTask p array).tasklist = s.tasklist :=
  (sameFrame_enqueueTask s p array).tasklist

@[simp] theorem enqueueTask_forking : (s.enqueueTask p array).forking = s.forking :=
  (sameFrame_enqueueTask s p array).forking

/-! ## The fork branch -/

/-- The tasks that `enqueueTaskRec n p` takes off their queues and queues again. -/
def pulledRec : ℕ → TaskId → Sys → List TaskId
  | 0, _, _ => []
  | n + 1, p, s =>
    if s.ForkBranch p then
      let parent := (s.task p).pOpptr
      parent :: pulledRec n parent (s.modify parent fun t => { t with justGotForked := 0 })
    else []

/-- The tasks that `enqueue_task(p)` queues again along with `p`: its parent, the parent's
parent and so on, as far as their flags are raised. -/
def pulled (p : TaskId) (s : Sys) : List TaskId := s.pulledRec s.tasklist.length p

variable {s p t array}

/-- Two states that the fork branch cannot tell apart. -/
structure SameForks (s s' : Sys) : Prop where
  curr : s'.rq.curr = s.rq.curr
  tasklist : s'.tasklist = s.tasklist
  policy : s'.current.policy = s.current.policy
  iAmOverdue : ∀ t, (s'.task t).iAmOverdue = (s.task t).iAmOverdue
  justGotForked : ∀ t, (s'.task t).justGotForked = (s.task t).justGotForked
  pOpptr : ∀ t, (s'.task t).pOpptr = (s.task t).pOpptr

namespace SameForks

variable {s s' : Sys}

/-- What the fork branch reads is in the tasks, in `current` and in the task list. -/
theorem of_task (htask : s'.task = s.task) (hcurr : s'.rq.curr = s.rq.curr)
    (htasklist : s'.tasklist = s.tasklist) : SameForks s s' where
  curr := hcurr
  tasklist := htasklist
  policy := by rw [current, htask, hcurr]
  iAmOverdue t := by rw [htask]
  justGotForked t := by rw [htask]
  pOpptr t := by rw [htask]

theorem forkBranch_iff (h : SameForks s s') : s'.ForkBranch p ↔ s.ForkBranch p := by
  simp only [ForkBranch, h.policy, h.justGotForked, h.curr, h.iAmOverdue, h.pOpptr]

/-- The fork branch pulls the same tasks when it reads the same. -/
theorem pulledRec_eq (h : SameForks s s') (n : ℕ) : s'.pulledRec n p = s.pulledRec n p := by
  induction n generalizing s s' p with
  | zero => rfl
  | succ n ih =>
    rw [pulledRec, pulledRec]
    simp only [h.forkBranch_iff, h.pOpptr]
    split
    · congr 1
      refine ih ⟨h.curr, h.tasklist, ?_, fun t => ?_, fun t => ?_, fun t => ?_⟩
      · have hpolicy := h.policy
        simp only [current, h.curr, modify_rq] at hpolicy ⊢
        exact modify_congr (fun t => t.policy) (fun _ _ h => h) hpolicy
      · exact modify_congr (fun t => t.iAmOverdue) (fun _ _ h => h) (h.iAmOverdue t)
      · exact modify_congr (fun t => t.justGotForked) (fun _ _ _ => rfl) (h.justGotForked t)
      · exact modify_congr (fun t => t.pOpptr) (fun _ _ h => h) (h.pOpptr t)
    · rfl

theorem pulled_eq (h : SameForks s s') : s'.pulled p = s.pulled p := by
  rw [pulled, h.tasklist, h.pulledRec_eq, ← pulled]

end SameForks

/-- Only tasks whose flag is raised are pulled along. -/
theorem justGotForked_of_mem_pulledRec {n : ℕ} (h : t ∈ s.pulledRec n p) :
    (s.task t).justGotForked ≠ 0 := by
  induction n generalizing s p with
  | zero => simp [pulledRec] at h
  | succ n ih =>
    rw [pulledRec] at h
    split at h
    case isFalse => simp at h
    case isTrue hb =>
      rcases List.mem_cons.mp h with rfl | ht
      · exact hb.2.2.2
      · have hflag := ih ht
        by_cases heq : t = (s.task p).pOpptr
        · rw [heq]
          exact hb.2.2.2
        · simpa [Function.update_of_ne heq] using hflag

/-- Only tasks whose flag is raised are pulled along. -/
theorem justGotForked_of_mem_pulled (h : t ∈ s.pulled p) : (s.task t).justGotForked ≠ 0 :=
  justGotForked_of_mem_pulledRec h

/-- What `enqueue_task` does to a task. -/
theorem enqueueTaskRec_task (n : ℕ) (s : Sys) (p : TaskId) (array : PrioArrayPtr) (t : TaskId) :
    (s.enqueueTaskRec n p array).task t =
      { s.task t with
        array := if t = p ∨ t ∈ s.pulledRec n p then some array else (s.task t).array
        justGotForked := if t ∈ s.pulledRec n p then 0 else (s.task t).justGotForked } := by
  have htail : ∀ (s : Sys) (p t : TaskId), (s.enqueueTail p array).task t =
      { s.task t with array := if t = p then some array else (s.task t).array } := by
    intro s p t
    rw [enqueueTail_task]
    by_cases ht : t = p
    · subst ht
      simp
    · simp [ht]
  induction n generalizing s p t with
  | zero => simp [enqueueTaskRec, pulledRec, htail]
  | succ n ih =>
    rw [enqueueTaskRec, pulledRec]
    split
    case isFalse => simp [htail]
    case isTrue hb =>
      simp only [List.mem_cons]
      set parent := (s.task p).pOpptr
      set s₁ := s.modify parent fun t => { t with justGotForked := 0 } with hs₁
      have hpulled : (s₁.dequeueTask parent array).pulledRec n parent = s₁.pulledRec n parent :=
        (SameForks.of_task (dequeueTask_task _ _ _) (by rw [dequeueTask_ptrs]) (by simp)).pulledRec_eq n
      -- the recursive call, read off the state in which only the parent's flag is lowered
      have hrec := fun t => ih (s₁.dequeueTask parent array) parent t
      simp only [hpulled, dequeueTask_task] at hrec
      have htask : ∀ t, s₁.task t = { s.task t with
          justGotForked := if t = parent then 0 else (s.task t).justGotForked } := by
        intro t
        by_cases ht : t = parent
        · rw [if_pos ht, ht, hs₁, modify_task, Function.update_self]
        · rw [if_neg ht, hs₁, modify_task, Function.update_of_ne ht]
      rw [enqueueFinish_task]
      change Function.update (enqueueTaskRec n parent array (s₁.dequeueTask parent array)).task p
        { (enqueueTaskRec n parent array (s₁.dequeueTask parent array)).task p with
          array := some array } t = _
      by_cases ht : t = p
      · subst ht
        rw [Function.update_self, hrec, htask]
        by_cases h : t ∈ s₁.pulledRec n parent <;> simp [h]
      · rw [Function.update_of_ne ht, hrec, htask]
        by_cases h : t ∈ s₁.pulledRec n parent <;> simp [h, ht]

theorem enqueueTask_task (s : Sys) (p : TaskId) (array : PrioArrayPtr) (t : TaskId) :
    (s.enqueueTask p array).task t =
      { s.task t with
        array := if t = p ∨ t ∈ s.pulled p then some array else (s.task t).array
        justGotForked := if t ∈ s.pulled p then 0 else (s.task t).justGotForked } :=
  enqueueTaskRec_task _ s p array t

/-- With no `justGotForked` flag raised there is no fork branch, whatever the bound. -/
theorem enqueueTaskRec_of_no_flag (n : ℕ) (h : ∀ t, (s.task t).justGotForked = 0) :
    s.enqueueTaskRec n p array = s.enqueueTail p array := by
  cases n with
  | zero => rfl
  | succ n => rw [enqueueTaskRec, if_neg fun hb => hb.2.1 (h _)]

theorem enqueueTask_of_not_forkBranch (h : ¬s.ForkBranch p) :
    s.enqueueTask p array = s.enqueueTail p array := by
  rw [enqueueTask]
  cases s.tasklist.length with
  | zero => rfl
  | succ n => rw [enqueueTaskRec, if_neg h]

/-- The bound on the recursion is never reached: each level lowers a flag, so any bound is as
good as any other once it is at least the number of raised flags. -/
theorem enqueueTaskRec_stable {n m : ℕ} {F : Finset TaskId}
    (hF : ∀ t, (s.task t).justGotForked ≠ 0 → t ∈ F) (hn : F.card ≤ n) (hm : F.card ≤ m) :
    s.enqueueTaskRec n p array = s.enqueueTaskRec m p array := by
  have hnone : F.card = 0 → ∀ t, (s.task t).justGotForked = 0 := by
    intro h t
    by_contra ht
    simpa [Finset.card_eq_zero.mp h] using hF t ht
  induction n generalizing m F s p with
  | zero =>
    have h := hnone (by omega)
    rw [enqueueTaskRec_of_no_flag 0 h, enqueueTaskRec_of_no_flag m h]
  | succ n ih =>
    cases m with
    | zero =>
      have h := hnone (by omega)
      rw [enqueueTaskRec_of_no_flag (n + 1) h, enqueueTaskRec_of_no_flag 0 h]
    | succ m =>
      rw [enqueueTaskRec, enqueueTaskRec]
      split
      · next hb =>
        have hparent : (s.task p).pOpptr ∈ F := hF _ hb.2.2.2
        have hcard := Finset.card_erase_of_mem hparent
        -- the flags left once the parent's is lowered
        have hF' : ∀ t, ((Function.update s.task (s.task p).pOpptr
            { s.task (s.task p).pOpptr with justGotForked := 0 }) t).justGotForked ≠ 0 →
            t ∈ F.erase (s.task p).pOpptr := by
          intro t ht
          by_cases heq : t = (s.task p).pOpptr
          · simp [heq] at ht
          · rw [Function.update_of_ne heq] at ht
            exact Finset.mem_erase.mpr ⟨heq, hF t ht⟩
        dsimp only
        rw [ih (m := m) (F := F.erase (s.task p).pOpptr)]
        · simpa using hF'
        · omega
        · omega
        · intro h t
          by_contra ht
          have := hF' t (by simpa using ht)
          simp [Finset.card_eq_zero.mp h] at this
      · rfl

end Sys
end ShortSched
