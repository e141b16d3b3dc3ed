import ShortSched.ClassInvariant

/-!
# Every operation keeps the representation invariant

One lemma for each operation, under the weakest condition on the fork branch of `enqueue_task`
that it needs: a tick never takes the branch, a wake-up and `set_user_nice` must not take it
for their task, and `setscheduler` is called with no flag raised.
-/

namespace ShortSched

open General

namespace Sys

variable {s s' : Sys} {p t : TaskId} {array : PrioArrayPtr}

/-! ## From one state to the next -/

/-- An operation on `p` that leaves every other task's class, array and state alone keeps the
invariant if the runqueue agrees again and `p` is valid again. -/
theorem RqInv.step (h : RqInv s) (hagree : s'.RqAgree) (hp : p ≠ s.rq.idle)
    (hptrs : SamePtrsUpToSwap s.rq.toRqPtrs s'.rq.toRqPtrs)
    (hsched : ∀ t, t ≠ p → (s'.task t).toTaskSched = (s.task t).toTaskSched)
    (harray : ∀ t, t ≠ p → (s'.task t).array = (s.task t).array)
    (hstate : (s'.task s.rq.idle).state = (s.task s.rq.idle).state)
    (htask : TaskInv s'.rq.toRqPtrs (s'.task p)) : RqInv s' where
  toRqAgree := hagree
  idle_runs := by rw [IdleRuns, hptrs.idle, hstate, h.idle_runs]
  idle_prio := by rw [hptrs.idle, hsched _ hp.symm, h.idle_prio]
  tasks t ht := by
    by_cases htp : t = p
    · rw [htp]
      exact htask
    · rw [hptrs.idle] at ht
      exact (h.tasks t ht).congr hptrs (hsched t htp) (harray t htp)

/-- Only the scheduling fields, the arrays and the state of the idle task matter. -/
theorem RqInv.congr (h : RqInv s)
    (hsched : ∀ t, (s'.task t).toTaskSched = (s.task t).toTaskSched)
    (harray : ∀ t, (s'.task t).array = (s.task t).array) (hrq : s'.rq = s.rq)
    (hstate : (s'.task s.rq.idle).state = (s.task s.rq.idle).state) : RqInv s' where
  toRqAgree := h.toRqAgree.congr (by rw [hrq]) harray
    (fun t _ => by rw [hsched]) (by rw [hrq]) (by rw [hrq]) (by rw [hrq])
  idle_runs := by rw [IdleRuns, hrq, hstate, h.idle_runs]
  idle_prio := by rw [hrq, hsched, h.idle_prio]
  tasks t ht := by
    rw [hrq] at ht ⊢
    exact (h.tasks t ht).congr (SamePtrs.refl _).upToSwap (hsched t) (harray t)

/-- A change of what is recorded about tasks keeps the invariant. -/
theorem RqInv.sameTasks (h : RqInv s) (htasks : SameTasks s s') (hrq : s'.rq = s.rq)
    (hstate : (s'.task s.rq.idle).state = (s.task s.rq.idle).state) : RqInv s' :=
  h.congr htasks.sched htasks.array hrq hstate

/-- So does a new time slice of a task. -/
theorem RqInv.setSlice (h : RqInv s) (hp : p ≠ s.rq.idle) {f : Task → Task}
    (hslice : ∃ timeSlice firstTimeSlice, (f (s.task p)).toTaskSched = { (s.task p).toTaskSched with
      timeSlice := timeSlice
      firstTimeSlice := firstTimeSlice })
    (harray : (f (s.task p)).array = (s.task p).array) : RqInv (s.modify p f) := by
  obtain ⟨timeSlice, firstTimeSlice, hsched⟩ := hslice
  have hinv := h.tasks p hp
  have hprio : (f (s.task p)).prio = (s.task p).prio := by rw [hsched]
  refine h.step (p := p) ?_ hp (SamePtrs.refl _).upToSwap ?_ ?_ ?_ ⟨?_, ?_⟩
  · exact h.toRqAgree.congr rfl (modify_proj (fun t => t.array) harray)
      (fun t _ => modify_proj (fun t => t.prio) hprio t) rfl rfl rfl
  · exact fun t ht => by rw [modify_task, Function.update_of_ne ht]
  · exact fun t ht => by rw [modify_task, Function.update_of_ne ht]
  · rw [modify_task, Function.update_of_ne hp.symm]
  · rw [modify_task, Function.update_self, hsched]
    exact hinv.ok.setSlice _ _
  · intro array hqueued
    rw [modify_task, Function.update_self, harray] at hqueued
    rw [modify_task, Function.update_self, hsched]
    exact (hinv.fits array hqueued).of_class rfl rfl

theorem RqInv.setTskNeedResched (h : RqInv s) (p : TaskId) : RqInv (s.setTskNeedResched p) :=
  h.sameTasks (.setTskNeedResched p s) rfl (modify_proj (fun t => t.state) rfl _)

/-- `current`, when it is not the idle task, is queued. -/
theorem RqAgree.current_queued (h : s.RqAgree) (hne : s.rq.curr ≠ s.rq.idle) :
    ∃ array, s.current.array = some array :=
  Option.ne_none_iff_exists'.mp (h.curr.resolve_left hne)

/-! ## The fork branch for `current` -/

/-- If the fork branch of `enqueue_task` is taken for `p`, it finds `current` as the parent, and
queued in the array that `p` enters. -/
def ForkFits (s : Sys) (p : TaskId) : Prop :=
  s.ForkBranch p → (s.task p).pOpptr = s.rq.curr ∧ s.tasklist ≠ [] ∧
    s.current.array = some (pointerToMyActivePrioArray (s.task p).toTaskSched s.rq.toRqPtrs)

theorem forkFits_of_not_forkBranch (h : ¬s.ForkBranch p) : s.ForkFits p := fun hc => absurd hc h

theorem pulled_of_not_forkBranch (h : ¬s.ForkBranch p) : s.pulled p = [] := by
  unfold pulled
  cases s.tasklist.length with
  | zero => rfl
  | succ n => rw [pulledRec, if_neg h]

/-- Once the flag of `current` is lowered, the branch is closed to every task. -/
theorem not_forkBranch_of_lowered {f : Task → Task}
    (hf : (f s.current).justGotForked = 0) (t : TaskId) : ¬(s.modify s.rq.curr f).ForkBranch t := by
  rintro ⟨-, hflag, -⟩
  apply hflag
  rw [current, modify_task, modify_rq, Function.update_self]
  exact hf

/-- The child of `current` pulls `current` along, and that ends the chain. -/
theorem pulled_of_parent (hbranch : s.ForkBranch p) (hparent : (s.task p).pOpptr = s.rq.curr)
    (hlist : s.tasklist ≠ []) : s.pulled p = [s.rq.curr] := by
  obtain ⟨n, hn⟩ : ∃ n, s.tasklist.length = n + 1 :=
    Nat.exists_eq_succ_of_ne_zero fun hc => hlist (List.length_eq_zero_iff.mp hc)
  have hrest : (s.modify s.rq.curr fun t => { t with justGotForked := 0 }).pulledRec n s.rq.curr
      = [] := by
    cases n with
    | zero => rfl
    | succ n => rw [pulledRec, if_neg (not_forkBranch_of_lowered rfl _)]
  rw [pulled, hn, pulledRec, if_pos hbranch, hparent]
  exact congrArg (s.rq.curr :: ·) hrest

/-- `current` is requeued at the tail, and `p` goes to the head of its queue. -/
theorem enqueueTask_of_parent (hbranch : s.ForkBranch p)
    (hparent : (s.task p).pOpptr = s.rq.curr) (hlist : s.tasklist ≠ []) :
    s.enqueueTask p array =
      let s₁ := ((s.modify s.rq.curr fun t => { t with justGotForked := 0 }).dequeueTask s.rq.curr
        array).enqueueTail s.rq.curr array
      (s₁.listAdd p array (s₁.task p).prio).enqueueFinish p array := by
  obtain ⟨n, hn⟩ : ∃ n, s.tasklist.length = n + 1 :=
    Nat.exists_eq_succ_of_ne_zero fun hc => hlist (List.length_eq_zero_iff.mp hc)
  set s₀ := s.modify s.rq.curr fun t => { t with justGotForked := 0 } with hs₀
  have hrest : (s₀.dequeueTask s.rq.curr array).enqueueTaskRec n s.rq.curr array =
      (s₀.dequeueTask s.rq.curr array).enqueueTail s.rq.curr array := by
    have hclosed : ¬(s₀.dequeueTask s.rq.curr array).ForkBranch s.rq.curr := by
      have hsame : SameForks s₀ (s₀.dequeueTask s.rq.curr array) :=
        .of_task (dequeueTask_task _ _ _) (by rw [dequeueTask_ptrs]) (by simp)
      exact mt hsame.forkBranch_iff.mp (not_forkBranch_of_lowered rfl _)
    cases n with
    | zero => rfl
    | succ n => rw [enqueueTaskRec, if_neg hclosed]
  rw [enqueueTask, hn, enqueueTaskRec, if_pos hbranch, hparent]
  dsimp only
  rw [hrest]

/-- Whom the branch pulls along was in the array already. -/
theorem ForkFits.array_of_pulled (h : s.ForkFits p) (ht : t ∈ s.pulled p) : (s.task t).array =
    some (pointerToMyActivePrioArray (s.task p).toTaskSched s.rq.toRqPtrs) := by
  by_cases hbranch : s.ForkBranch p
  · obtain ⟨hparent, hlist, harray⟩ := h hbranch
    rw [pulled_of_parent hbranch hparent hlist, List.mem_singleton] at ht
    rw [ht]
    exact harray
  · rw [pulled_of_not_forkBranch hbranch] at ht
    cases ht

/-- `current` is requeued, and the runqueue agrees before `p` is linked. -/
theorem RqAgree.requeueParent (h : s.RqAgree) (harray : s.current.array = some array) :
    (((s.modify s.rq.curr fun t => { t with justGotForked := 0 }).dequeueTask s.rq.curr
      array).enqueueTail s.rq.curr array).RqAgree := by
  have hlower : (s.modify s.rq.curr fun t => { t with justGotForked := 0 }).RqAgree :=
    h.congr rfl (modify_proj (fun t => t.array) rfl)
      (fun t _ => modify_proj (fun t => t.prio) rfl t) rfl rfl rfl
  have hqueued : ((s.modify s.rq.curr fun t => { t with justGotForked := 0 }).task
      s.rq.curr).array = some array := by
    rw [modify_proj (fun t => t.array) rfl]
    exact harray
  refine (hlower.dequeue hqueued).enqueueTail ?_
  have hprio : ((s.modify s.rq.curr fun t => { t with justGotForked := 0 }).task s.rq.curr).prio =
      s.current.prio := modify_proj (fun t => t.prio) rfl _
  rw [dequeueTask_task, hprio]
  exact h.layout.range _ (by rw [harray]; exact Option.some_ne_none _)

variable [Param]

/-! ## `activate_task` -/

theorem AgreeExcept.activateTask (h : s.AgreeExcept p 0)
    (hrange : 0 ≤ ((s.task p).woken s.jiffies).prio ∧ ((s.task p).woken s.jiffies).prio < maxPrio)
    (hbranch : ¬s.ForkBranch p) : (s.activateTask p).RqAgree := by
  rw [activateTask_eq, enqueueTask_of_not_forkBranch
    (fun hc => hbranch ((sameForks_woken p s).forkBranch_iff.mp hc))]
  refine (h.modify (Task.woken s.jiffies)).activate ?_
  simpa using hrange

/-- **`activate_task`** of a sleeping task, with the fork branch or without it. -/
theorem RqAgree.activateTask (h : s.RqAgree) (hp : (s.task p).array = none) (hidle : p ≠ s.rq.idle)
    (hrange : 0 ≤ ((s.task p).woken s.jiffies).prio ∧ ((s.task p).woken s.jiffies).prio < maxPrio)
    (hfork : s.ForkFits p) : (s.activateTask p).RqAgree := by
  by_cases hbranch : s.ForkBranch p
  swap
  · exact (h.asleep hp hidle).activateTask hrange hbranch
  obtain ⟨hparent, hlist, harray⟩ := hfork hbranch
  have hne : s.rq.curr ≠ p := by
    rintro rfl
    rw [hp] at harray
    cases harray
  set s₁ := s.modify p (Task.woken s.jiffies) with hs₁
  set a := pointerToMyActivePrioArray (s.task p).toTaskSched s.rq.toRqPtrs with ha
  have hbranch₁ : s₁.ForkBranch p := (sameForks_woken p s).forkBranch_iff.mpr hbranch
  have hparent₁ : (s₁.task p).pOpptr = s₁.rq.curr := by
    rw [(sameForks_woken p s).pOpptr]
    exact hparent
  have hagree₁ : s₁.RqAgree := by
    refine h.congr rfl (modify_proj (fun t => t.array) (Task.woken_frame _ _).1) (fun t ht => ?_)
      rfl rfl rfl
    rw [hs₁, modify_task, Function.update_of_ne]
    rintro rfl
    exact ht hp
  have hcurr₁ : s₁.current.array = some a := by
    show (s₁.task s.rq.curr).array = some a
    rw [hs₁, modify_task, Function.update_of_ne hne]
    exact harray
  have hagree₂ := hagree₁.requeueParent hcurr₁
  rw [activateTask_eq, enqueueTask_of_parent hbranch₁ hparent₁ hlist]
  set s₂ := ((s₁.modify s₁.rq.curr fun t => { t with justGotForked := 0 }).dequeueTask s₁.rq.curr
    a).enqueueTail s₁.rq.curr a with hs₂
  have htask₂ : s₂.task p = s₁.task p := by
    have hne₁ : p ≠ s₁.rq.curr := hne.symm
    rw [hs₂, enqueueTail_task, Function.update_of_ne hne₁, dequeueTask_task, modify_task,
      Function.update_of_ne hne₁]
  have hptrs₂ : s₂.rq.toRqPtrs = s.rq.toRqPtrs := by
    rw [hs₂, enqueueTail_ptrs, dequeueTask_ptrs]
    rfl
  have hexcept : s₂.AgreeExcept p 0 := by
    refine hagree₂.asleep ?_ ?_
    · rw [htask₂, hs₁, modify_task, Function.update_self, (Task.woken_frame _ _).1, hp]
    · rw [hptrs₂]
      exact hidle
  refine hexcept.attach a (p :: s₂.queue a (s₂.task p).prio) ?_ (List.Perm.refl _) rfl rfl ?_ rfl rfl
  · rw [htask₂, hs₁, modify_task, Function.update_self]
    exact hrange
  · show s₂.rq.nrRunning + 1 = s₂.rq.nrRunning - 0 + 1
    omega

/-- A bonus does not move a task to another array. -/
theorem pointer_woken (t : Task) (h : TaskOk t.toTaskSched) (jiffies : UInt32) (q : RqPtrs) :
    pointerToMyActivePrioArray (t.woken jiffies).toTaskSched q
      = pointerToMyActivePrioArray t.toTaskSched q := by
  have hok := h.woken jiffies
  have hsched := Task.woken_sched jiffies t
  have hpolicy : (t.woken jiffies).policy = t.policy := by rw [hsched]
  have hover : (t.woken jiffies).iAmOverdue = t.iAmOverdue := by rw [hsched]
  have hrt : (t.woken jiffies).RtTask ↔ t.RtTask := by
    rw [hok.rtTask_iff, h.rtTask_iff, hpolicy]
  unfold pointerToMyActivePrioArray
  simp only [TaskSched.ShortTask, TaskSched.OverdueTask, hpolicy, hover, hrt]

/-- **`activate_task`** keeps the invariant. -/
theorem RqInv.activateTask (h : RqInv s) (hp : (s.task p).array = none) (hidle : p ≠ s.rq.idle)
    (hfork : s.ForkFits p) : RqInv (s.activateTask p) := by
  have hok := (h.tasks p hidle).ok
  have hptrs : SamePtrs s.rq.toRqPtrs (s.activateTask p).rq.toRqPtrs := by
    rw [activateTask_ptrs]
    exact ⟨rfl, rfl, rfl, rfl, rfl, rfl⟩
  have hagree := h.toRqAgree.activateTask hp hidle (hok.woken s.jiffies).range hfork
  refine h.step hagree hidle hptrs.upToSwap (fun t ht => ?_) (fun t ht => ?_) ?_ ⟨?_, ?_⟩
  · rw [activateTask_sched, modify_task, Function.update_of_ne ht]
  · rw [activateTask_task]
    dsimp only
    split
    · next hmoved =>
      exact (hfork.array_of_pulled (hmoved.resolve_left ht)).symm
    · rfl
  · rw [activateTask_task]
    exact modify_proj (fun t => t.state) (Task.woken_frame _ _).2.2.2 _
  · rw [activateTask_sched, modify_task, Function.update_self]
    exact hok.woken s.jiffies
  · intro array harray
    rw [activateTask_task] at harray
    dsimp only at harray
    rw [if_pos (.inl rfl)] at harray
    rw [activateTask_sched, modify_task, Function.update_self, ← Option.some.inj harray,
      ← pointer_woken _ hok s.jiffies]
    exact ((hok.woken s.jiffies).fits_pointer _).swap hptrs.upToSwap

/-! ## `try_to_wake_up` -/

omit [Param] in
/-- The CPU of a wake-up does not matter to the fork branch. -/
theorem ForkFits.wakePrepare (h : s.ForkFits p) (sync : Bool) : (s.wakePrepare p sync).ForkFits p := by
  have hprepare := sameTasks_wakePrepare p sync s
  have hforks := sameForks_wakePrepare p sync s
  have hptr : pointerToMyActivePrioArray (s.task p).toTaskSched (s.wakePrepare p sync).rq.toRqPtrs
      = pointerToMyActivePrioArray (s.task p).toTaskSched s.rq.toRqPtrs := by
    unfold Sys.wakePrepare
    split <;> split <;> rfl
  intro hbranch
  rw [hforks.pOpptr, hforks.curr, hforks.tasklist, current, hforks.curr, hprepare.array,
    hprepare.sched, hptr]
  exact h (hforks.forkBranch_iff.mp hbranch)

/-- **`try_to_wake_up`** keeps the runqueue consistent. -/
theorem RqInv.tryToWakeUp (h : RqInv s) (hp : p ≠ s.rq.idle) (sync : Bool)
    (hfork : (s.task p).array = none → s.ForkFits p) : RqInv (s.tryToWakeUp p sync).2 := by
  by_cases hsleep : (s.task p).array = none
  swap
  · rw [tryToWakeUp_of_queued hsleep]
    exact h.sameTasks (.setState p .running s) rfl (by simp [hp.symm])
  have hok := (h.tasks p hp).ok
  refine h.step (p := p) ?_ hp (samePtrs_tryToWakeUp p sync s).upToSwap ?_ ?_
    ((tryToWakeUp_frame p _ sync s).2 hp.symm) ⟨?_, ?_⟩
  · -- the runqueue agrees after each of the three parts
    have hprepare := sameTasks_wakePrepare p sync s
    have hrq : (s.wakePrepare p sync).rq.arrays = s.rq.arrays ∧
        (s.wakePrepare p sync).rq.nrRunning = s.rq.nrRunning ∧
        (s.wakePrepare p sync).rq.idle = s.rq.idle ∧
        (s.wakePrepare p sync).rq.curr = s.rq.curr ∧
        (s.wakePrepare p sync).jiffies = s.jiffies := by
      rw [wakePrepare]
      split <;> split <;> exact ⟨rfl, rfl, rfl, rfl, rfl⟩
    obtain ⟨harrays, hrunning, hidle, hcurr, hjiffies⟩ := hrq
    have hagree : (s.wakePrepare p sync).RqAgree :=
      h.toRqAgree.congr harrays hprepare.array (fun t _ => by rw [hprepare.sched]) hrunning hidle
        hcurr
    have hwoken : (((s.wakePrepare p sync).task p).woken (s.wakePrepare p sync).jiffies).toTaskSched
        = ((s.task p).woken s.jiffies).toTaskSched := by
      rw [hjiffies, woken_wakePrepare]
    have hactivate : ((s.wakePrepare p sync).activateTask p).RqAgree := by
      refine hagree.activateTask ?_ ?_ ?_ ?_
      · rw [hprepare.array, hsleep]
      · rw [hidle]
        exact hp
      · rw [hwoken]
        exact (hok.woken s.jiffies).range
      · exact (hfork hsleep).wakePrepare sync
    rw [tryToWakeUp_of_sleeping hsleep]
    have hfinish := sameTasks_wakeFinish p ((s.wakePrepare p sync).activateTask p)
    have hrq : (((s.wakePrepare p sync).activateTask p).wakeFinish p).rq
        = ((s.wakePrepare p sync).activateTask p).rq := by
      rw [wakeFinish]
      split <;> rfl
    exact hactivate.congr (by rw [hrq]) hfinish.array (fun t _ => by rw [hfinish.sched])
      (by rw [hrq]) (by rw [hrq]) (by rw [hrq])
  · intro t ht
    rw [tryToWakeUp_sched, if_neg fun hc => ht hc.1]
  · intro t ht
    rw [tryToWakeUp_array]
    split
    · next hmoved =>
      exact ((hfork hsleep).array_of_pulled (hmoved.2.resolve_left ht)).symm
    · rfl
  · rw [tryToWakeUp_sched, if_pos ⟨rfl, hsleep⟩]
    exact hok.woken s.jiffies
  · intro array harray
    have hptr := (samePtrs_tryToWakeUp p sync s).upToSwap
    rw [tryToWakeUp_array, if_pos ⟨hsleep, .inl rfl⟩] at harray
    rw [tryToWakeUp_sched, if_pos ⟨rfl, hsleep⟩, ← Option.some.inj harray,
      ← pointer_woken _ hok s.jiffies]
    exact ((hok.woken s.jiffies).fits_pointer _).swap hptr

/-! ## `scheduler_tick` -/

omit [Param] in
/-- A charged `current` is in the array that the code derives from its class. -/
theorem RqInv.current_array (h : RqInv s) (hcharged : s.Charged) :
    s.current.array = some (pointerToMyActivePrioArray s.current.toTaskSched s.rq.toRqPtrs) := by
  obtain ⟨array, harray⟩ := h.toRqAgree.current_queued hcharged.1
  have hinv := h.tasks _ hcharged.1
  rw [harray, (hinv.fits array harray).eq_pointer hinv.ok]
  rintro rfl
  exact hcharged.2 harray

/-- The end of a slice takes `current` out of its queue; its fields may change then. -/
theorem RqAgree.expireState (h : s.RqAgree)
    (harray : s.current.array =
      some (pointerToMyActivePrioArray s.current.toTaskSched s.rq.toRqPtrs)) :
    s.expireState.AgreeExcept s.rq.curr 1 := by
  have htick : (s.modify s.rq.curr Task.tick).RqAgree :=
    h.congr rfl (modify_proj (fun t => t.array) (Task.tick_frame _).1)
      (fun t _ => modify_proj (fun t => t.prio) (by simp) t) rfl rfl rfl
  have hptr : pointerToMyActivePrioArray
      ((s.modify s.rq.curr Task.tick).task s.rq.curr).toTaskSched
      (s.modify s.rq.curr Task.tick).rq.toRqPtrs
      = pointerToMyActivePrioArray s.current.toTaskSched s.rq.toRqPtrs := by
    simp [pointerToMyActivePrioArray]
  have hqueued : ((s.modify s.rq.curr Task.tick).task s.rq.curr).array =
      some (pointerToMyActivePrioArray s.current.toTaskSched s.rq.toRqPtrs) := by
    rw [modify_proj (fun t => t.array) (Task.tick_frame _).1, harray]
  rw [Sys.expireState, expireBegin, hptr]
  exact ((htick.dequeue hqueued).modify _).modify _

/-- After a tick `current` is in the array of its class, or it is an OTHER task that has
expired. -/
theorem schedulerTick_array_curr (hcharged : s.Charged)
    (harray : s.current.array =
      some (pointerToMyActivePrioArray s.current.toTaskSched s.rq.toRqPtrs)) :
    (s.schedulerTick.task s.rq.curr).array = some (pointerToMyActivePrioArray
        (s.schedulerTick.task s.rq.curr).toTaskSched s.rq.toRqPtrs) ∨
      (s.schedulerTick.task s.rq.curr).OtherTask ∧
        (s.schedulerTick.task s.rq.curr).array = some s.rq.expired := by
  have hcase := s.schedulerTick_cases
  generalize s.schedulerTick = s' at hcase ⊢
  cases hcase with
  | idle h => exact absurd h hcharged.1
  | expired _ h => exact absurd h hcharged.2
  | fifo => exact .inl harray
  | rr =>
    left
    rw [modify_proj (fun t => t.array) rfl, harray]
    simp [pointerToMyActivePrioArray]
  | run =>
    left
    rw [modify_proj (fun t => t.array) (Task.tick_frame _).1, harray]
    simp [pointerToMyActivePrioArray]
  | rrRefill _ hrt =>
    left
    have hrt' : s.current.prio < 100 := hrt
    simp [pointerToMyActivePrioArray, rrRefill, setTskNeedResched, hrt']
  | toExpired _ _ _ hto =>
    right
    rw [enqueueTail_task, stampExpired_task, Function.update_self]
    exact ⟨hto.1, rfl⟩
  | requeue =>
    left
    rw [enqueueTail_task, Function.update_self]

/-- **A tick that is charged** leaves the queues in agreement with the tasks. -/
theorem RqAgree.schedulerTick (h : s.RqAgree) (hcharged : s.Charged)
    (hok : TaskOk s.current.toTaskSched)
    (harray : s.current.array =
      some (pointerToMyActivePrioArray s.current.toTaskSched s.rq.toRqPtrs)) :
    s.schedulerTick.RqAgree := by
  -- the priority that the tick queues `current` at is valid
  have hrange : 0 ≤ (s.schedulerTick.task s.rq.curr).prio ∧
      (s.schedulerTick.task s.rq.curr).prio < maxPrio := by
    rw [schedulerTick_sched, if_pos ⟨rfl, hcharged⟩]
    exact hok.afterTick.range
  have hcase := s.schedulerTick_cases
  generalize s.schedulerTick = s' at hcase hrange ⊢
  cases hcase with
  | idle h => exact absurd h hcharged.1
  | expired _ h => exact absurd h hcharged.2
  | fifo => exact h
  | rr =>
    exact h.congr rfl (modify_proj (fun t => t.array) rfl)
      (fun t _ => modify_proj (fun t => t.prio) rfl t) rfl rfl rfl
  | run =>
    exact h.congr rfl (modify_proj (fun t => t.array) (Task.tick_frame _).1)
      (fun t _ => modify_proj (fun t => t.prio) (by simp) t) rfl rfl rfl
  | rrRefill _ hrt =>
    have hrefill : (s.rrRefill s.rq.curr).RqAgree :=
      h.congr rfl (fun t => by
          rw [rrRefill, (SameTasks.setTskNeedResched _ _).array]
          exact modify_proj (fun t => t.array) rfl t)
        (fun t _ => by
          rw [rrRefill, (SameTasks.setTskNeedResched _ _).sched]
          exact modify_proj (fun t => t.prio) rfl t) rfl rfl rfl
    have hqueued : ((s.rrRefill s.rq.curr).task s.rq.curr).array = some s.rq.rtShort := by
      rw [← pointer_of_rtTask s.rq.toRqPtrs hrt, ← harray]
      simp [rrRefill, setTskNeedResched]
    refine (hrefill.dequeue hqueued).enqueueTail ?_
    simpa using hrange
  | toExpired =>
    have hexpire := h.expireState harray
    have hstamp : s.expireState.stampExpired.AgreeExcept s.rq.curr 1 := by
      unfold stampExpired
      split
      · exact hexpire.congr rfl (fun _ _ => rfl) (fun _ _ => rfl) rfl rfl rfl
      · exact hexpire
    apply hstamp.enqueueTail
    simpa [stampExpired_task] using hrange
  | requeue =>
    refine (h.expireState harray).enqueueTail ?_
    simpa using hrange

/-- **A tick** keeps the invariant, whatever flags are raised. -/
theorem RqInv.schedulerTick (h : RqInv s) : RqInv s.schedulerTick := by
  have hcase := s.schedulerTick_cases
  by_cases hcharged : s.Charged
  swap
  · -- nothing but `need_resched` changes
    generalize s.schedulerTick = s' at hcase
    cases hcase with
    | idle => exact h
    | expired => exact h.setTskNeedResched _
    | fifo hc | rr hc | rrRefill hc | run hc | toExpired hc | requeue hc => exact absurd hc hcharged
  have hinv := h.tasks _ hcharged.1
  have harray := h.current_array hcharged
  have hok : TaskOk (s.schedulerTick.task s.rq.curr).toTaskSched := by
    rw [schedulerTick_sched, if_pos ⟨rfl, hcharged⟩]
    exact hinv.ok.afterTick
  refine h.step (h.toRqAgree.schedulerTick hcharged hinv.ok harray) hcharged.1
    (samePtrs_schedulerTick s).upToSwap ?_ ?_ ?_ ⟨hok, ?_⟩
  · exact fun t ht => by rw [schedulerTick_task_of_ne ht]
  · exact fun t ht => by rw [schedulerTick_task_of_ne ht]
  · rw [schedulerTick_task_of_ne hcharged.1.symm]
  · intro array ha
    refine Fits.swap (q := s.rq.toRqPtrs) ?_ (samePtrs_schedulerTick s).upToSwap
    rcases schedulerTick_array_curr hcharged harray with hptr | ⟨hother, hexp⟩
    · rw [ha] at hptr
      rw [Option.some.inj hptr]
      exact hok.fits_pointer _
    · rw [ha] at hexp
      rw [Option.some.inj hexp]
      exact Fits.expired hother

/-! ## `set_user_nice` -/

omit [Param] in
/-- **`set_user_nice`** leaves the queues in agreement with the tasks. -/
theorem RqAgree.setUserNice (h : s.RqAgree) (nice : ℤ) (hok : TaskOk (s.task p).toTaskSched)
    (hbranch : ¬s.ForkBranch p) : (s.setUserNice p nice).RqAgree := by
  have hrange : 0 ≤ ((s.task p).renice nice).prio ∧ ((s.task p).renice nice).prio < maxPrio :=
    (hok.renice nice).range
  have hcase := s.setUserNice_cases p nice
  generalize s.setUserNice p nice = s' at hcase ⊢
  have hqueued : ∀ array, (s.task p).array = some array →
      (s.task p).renice nice = (setNice nice (s.task p)).toTaskSched →
      (s.reniceQueued p nice array).RqAgree := by
    intro array harray hrenice
    rw [reniceQueued, enqueueTask_of_not_forkBranch
      (fun hc => hbranch ((sameForks_setNice p nice array s).forkBranch_iff.mp hc))]
    refine ((h.dequeue harray).modify _).enqueueTail ?_
    rw [hrenice] at hrange
    simpa using hrange
  cases hcase with
  | same => exact h
  | rt | overdue =>
    exact h.congr rfl (modify_proj (fun t => t.array) rfl)
      (fun t _ => modify_proj (fun t => t.prio) rfl t) rfl rfl rfl
  | sleeping _ _ _ harray =>
    refine h.congr rfl (modify_proj (fun t => t.array) rfl) (fun t ht => ?_) rfl rfl rfl
    have htp : t ≠ p := by
      rintro rfl
      exact ht harray
    simp [htp]
  | queued _ _ _ harray hrenice => exact hqueued _ harray hrenice
  | queuedResched _ _ _ harray hrenice =>
    exact (hqueued _ harray hrenice).congr rfl (SameTasks.setTskNeedResched _ _).array
      (fun t _ => by rw [(SameTasks.setTskNeedResched _ _).sched]) rfl rfl rfl

omit [Param] in
/-- So the runqueue stays consistent. -/
theorem RqInv.setUserNice (h : RqInv s) (hp : p ≠ s.rq.idle) (nice : ℤ)
    (hbranch : ¬s.ForkBranch p) : RqInv (s.setUserNice p nice) := by
  have hinv := h.tasks p hp
  have hnot : ∀ t, t ∉ s.pulled p := by
    rw [pulled_of_not_forkBranch hbranch]
    exact fun t => List.not_mem_nil
  have hptrs : SamePtrsUpToSwap s.rq.toRqPtrs (s.setUserNice p nice).rq.toRqPtrs :=
    (SamePtrs.of_eq (setUserNice_ptrs p nice s)).upToSwap
  have hidle : ((s.setUserNice p nice).task s.rq.idle).state = (s.task s.rq.idle).state := by
    obtain ⟨_, hinfo⟩ := setUserNice_info p s.rq.idle nice s
    rw [hinfo]
  refine h.step (h.toRqAgree.setUserNice nice hinv.ok hbranch) hp hptrs ?_ ?_ hidle ⟨?_, ?_⟩
  · exact fun t ht => by rw [setUserNice_sched, if_neg ht]
  · exact fun t ht => (setUserNice_frame p t nice s (hnot t)).1
  · rw [setUserNice_sched, if_pos rfl]
    exact hinv.ok.renice nice
  · intro array harray
    rw [(setUserNice_frame p p nice s (hnot p)).1] at harray
    rw [setUserNice_sched, if_pos rfl, setUserNice_ptrs]
    obtain ⟨hpolicy, hover⟩ := (s.task p).renice_class nice
    exact (hinv.fits array harray).of_class hpolicy hover

/-! ## `setscheduler` -/

/-- A task that is dequeued, changed and activated again is where its class belongs. -/
theorem RqAgree.requeued (h : s.RqAgree) {f : Task → Task} (hflags : s.NoFlags)
    (hf : ∀ t : Task, (f t).array = t.array ∧ (f t).justGotForked = t.justGotForked ∧
      (f t).pOpptr = t.pOpptr ∧ (f t).state = t.state)
    (hok : ∀ t : Task, t.toTaskSched = (s.task p).toTaskSched → TaskOk (f t).toTaskSched) :
    (s.requeued p f).RqAgree := by
  unfold Sys.requeued
  cases harray : (s.task p).array with
  | none =>
    refine h.congr rfl (modify_proj (fun t => t.array) (hf _).1) (fun t ht => ?_) rfl rfl rfl
    have htp : t ≠ p := by
      rintro rfl
      exact ht harray
    simp [htp]
  | some array =>
    dsimp only
    refine (((h.deactivate harray).modify _).modify f).activateTask ?_ ?_
    · have htask : ((((s.dropRunning p).dequeueTask p array).modify p fun t =>
          { t with array := none }).modify p f).task p = f { s.task p with array := none } := by
        simp [dropRunning]
      have hnew : TaskOk (f { s.task p with array := none }).toTaskSched := hok _ rfl
      rw [htask]
      exact (hnew.woken _).range
    · rintro ⟨-, hflag, -⟩
      apply hflag
      rw [current, modify_proj (fun t => t.justGotForked) (hf _).2.1,
        modify_proj (fun t => t.justGotForked) rfl, dequeueTask_task]
      exact hflags _

/-- The counters agree too: the task is counted out and in. -/
theorem RqInv.requeued (h : RqInv s) (hp : p ≠ s.rq.idle) {f : Task → Task} (hflags : s.NoFlags)
    (hf : ∀ t : Task, (f t).array = t.array ∧ (f t).justGotForked = t.justGotForked ∧
      (f t).pOpptr = t.pOpptr ∧ (f t).state = t.state)
    (hnone : ∀ t : Task, f { t with array := none } = { f t with array := none })
    (hok : ∀ t : Task, t.toTaskSched = (s.task p).toTaskSched → TaskOk (f t).toTaskSched) :
    RqInv (s.requeued p f) := by
  have hptrs := (samePtrs_requeued p f s).upToSwap
  have hframe := fun t => requeued_frame hnone (hflags t) hf p
  have hwoken : TaskOk ((f (s.task p)).woken s.jiffies).toTaskSched := (hok _ rfl).woken _
  refine h.step (h.toRqAgree.requeued hflags hf hok) hp hptrs ?_ ?_ (hframe _).2.2.2 ⟨?_, ?_⟩
  · exact fun t ht => by rw [requeued_sched hnone, if_neg ht]
  · exact fun t ht => by rw [(hframe t).1, if_neg ht]
  · rw [requeued_sched hnone, if_pos rfl]
    split
    · exact hok _ rfl
    · exact hwoken
  · intro array harray
    rw [(hframe p).1, if_pos rfl, Option.map_eq_some_iff] at harray
    obtain ⟨array', harray', rfl⟩ := harray
    rw [requeued_sched hnone, if_pos rfl, if_neg (by rw [harray']; exact Option.some_ne_none _)]
    rw [← pointer_woken (f (s.task p)) (hok _ rfl) s.jiffies]
    exact (hwoken.fits_pointer _).swap hptrs

omit [Param] in
theorem RqInv.sameButFlags (h : RqInv s) (hsame : SameButFlags s s') : RqInv s' := by
  apply h.sameTasks hsame.sameTasks hsame.rq
  obtain ⟨_, htask⟩ := hsame.task s.rq.idle
  rw [htask]

omit [Param] in
theorem NoFlags.sameTasks (h : s.NoFlags) (htasks : SameTasks s s') : s'.NoFlags :=
  fun t => (htasks.justGotForked t).trans (h t)

/-- **`setscheduler`** keeps the runqueue consistent, in each of its outcomes. -/
theorem RqInv.setscheduler {pid policy : ℤ} {param : UserParam} {r : ℤ} (h : RqInv s)
    (hflags : s.NoFlags) (hidle : s.findProcessByPid pid ≠ some s.rq.idle)
    (hcall : s.setscheduler pid policy param = some (r, s')) : RqInv s' := by
  have hne : ∀ {p lp}, Target s pid param p lp → p ≠ s.rq.idle := by
    rintro p lp target rfl
    exact hidle target.found
  cases SetschedCase.of_eq_some hcall with
  | refused _ hsame => exact h.sameButFlags hsame
  | @adjusted p lp target =>
    have hp := hne target
    have hinv := h.tasks p hp
    have hstep : RqInv (s.modify p (Task.adjustShort lp)) := by
      refine h.step (p := p) ?_ hp (SamePtrs.refl _).upToSwap ?_ ?_ ?_ ⟨?_, ?_⟩
      · exact h.toRqAgree.congr rfl (modify_proj (fun t => t.array) rfl)
          (fun t _ => modify_proj (fun t => t.prio) rfl t) rfl rfl rfl
      · exact fun t ht => by simp [ht]
      · exact fun t ht => by simp [ht]
      · exact modify_proj (fun t => t.state) rfl _
      · simpa using hinv.ok.adjustShort lp
      · intro array harray
        rw [modify_proj (fun t => t.array) rfl] at harray
        have hfits : Fits s.rq.toRqPtrs ((s.task p).adjustShort lp).toTaskSched array :=
          (hinv.fits array harray).of_class rfl rfl
        simpa using hfits
    exact hstep.setTskNeedResched _
  | @madeShort p lp target hother =>
    have hp := hne target
    have hinv := h.tasks p hp
    have hframe : ∀ t : Task, (t.makeShort lp).array = t.array ∧
        (t.makeShort lp).justGotForked = t.justGotForked ∧ (t.makeShort lp).pOpptr = t.pOpptr ∧
        (t.makeShort lp).state = t.state := fun _ => ⟨rfl, rfl, rfl, rfl⟩
    have hok : ∀ t : Task, t.toTaskSched = (s.task p).toTaskSched →
        TaskOk (t.makeShort lp).toTaskSched := by
      intro t ht
      refine TaskOk.makeShort ?_ ?_ lp
      · rw [ht]
        exact hinv.ok
      · rw [TaskSched.OtherTask, ht]
        exact hother
    have hnew := h.requeued hp hflags hframe (fun _ => rfl) hok
    exact hnew.setTskNeedResched _
  | @changed p lp policy' s₁ target hnot hnew hprio _ hsame =>
    have hp := hne target
    have hinv := h.tasks p hp
    have hframe : ∀ t : Task, (t.setPolicy policy' lp).array = t.array ∧
        (t.setPolicy policy' lp).justGotForked = t.justGotForked ∧
        (t.setPolicy policy' lp).pOpptr = t.pOpptr ∧ (t.setPolicy policy' lp).state = t.state :=
      fun _ => ⟨rfl, rfl, rfl, rfl⟩
    have hok : ∀ t : Task, t.toTaskSched = (s₁.task p).toTaskSched →
        TaskOk (t.setPolicy policy' lp).toTaskSched := by
      intro t ht
      refine TaskOk.setPolicy ?_ hnew hprio
      rw [ht, hsame.sameTasks.sched]
      exact hinv.ok
    have hflags₁ : s₁.NoFlags := hflags.sameTasks hsame.sameTasks
    have hp₁ : p ≠ s₁.rq.idle := by
      rw [hsame.rq]
      exact hp
    exact (h.sameButFlags hsame).requeued hp₁ hflags₁ hframe (fun _ => rfl) hok

/-! ## `schedule` -/

omit [Param] in
/-- A pass of `schedule` keeps it consistent. -/
theorem RqInv.schedulePass (h : RqInv s) (hpass : s.schedulePass = some s') : RqInv s' := by
  have hframe := schedulePass_frame hpass
  obtain ⟨_, s₃, _, _, hpass', -, hagree⟩ :=
    h.toRqAgree.schedulePass fun hc => h.idle_runs.not_goesToSleep hc
  rw [hpass] at hpass'
  obtain rfl := Option.some.inj hpass'
  refine ⟨hagree, hframe.idleRuns h.idle_runs, ?_, ?_⟩
  · rw [hframe.ptrs.idle, hframe.sched]
    exact h.idle_prio
  · intro t ht
    rw [hframe.ptrs.idle] at ht
    have hinv := h.tasks t ht
    refine ⟨by rw [hframe.sched]; exact hinv.ok, fun array harray => ?_⟩
    rw [hframe.array] at harray
    rw [hframe.sched]
    split at harray
    · cases harray
    · exact (hinv.fits array harray).swap hframe.ptrs

omit [Param] in
theorem RqInv.schedule (h : RqInv s) (hsched : s.schedule = some s') : RqInv s' :=
  scheduleLoop_induct (fun _ _ h hpass => h.schedulePass hpass) hsched h

/-! ## `sys_sched_yield` -/

omit [Param] in
/-- A task that yields goes to the end of a queue of its own array. -/
theorem RqInv.yieldRequeue (h : RqInv s) (hne : s.rq.curr ≠ s.rq.idle)
    (hyield : s.yieldRequeue = some s') : RqInv s' := by
  obtain ⟨array, harray, hframe⟩ := yieldRequeue_eq_some hyield
  have hinv := h.tasks _ hne
  have hcurr : s'.task s.rq.curr =
      { s.current with prio := s.yieldPrio s.rq.curr array } := by
    rw [hframe.task, Function.update_self]
  have hother : ∀ t, t ≠ s.rq.curr → s'.task t = s.task t := fun t ht => by
    rw [hframe.task, Function.update_of_ne ht]
  refine h.step (h.toRqAgree.yield harray hframe) hne (SamePtrs.of_eq hframe.ptrs).upToSwap ?_ ?_ ?_
    ⟨?_, ?_⟩
  · exact fun t ht => by rw [hother t ht]
  · exact fun t ht => by rw [hother t ht]
  · rw [hother _ hne.symm]
  · rw [hcurr]
    exact hinv.ok.yield array
  · intro array' harray'
    rw [hcurr] at harray'
    rw [hcurr, hframe.ptrs]
    exact (hinv.fits array' harray').of_class rfl rfl

omit [Param] in
/-- **`sys_sched_yield`** returns, and keeps the runqueue consistent. -/
theorem RqInv.sysSchedYield (h : RqInv s) (hne : s.rq.curr ≠ s.rq.idle) :
    ∃ s', s.sysSchedYield = some s' ∧ RqInv s' := by
  obtain ⟨array, harray⟩ := h.toRqAgree.current_queued hne
  obtain ⟨s₁, hyield⟩ := yieldRequeue_of_queued harray
  have h₁ := h.yieldRequeue hne hyield
  obtain ⟨s', hsched, -⟩ := schedule_returns h₁.toRqAgree h₁.idle_runs
  refine ⟨s', ?_, h₁.schedule hsched⟩
  unfold Sys.sysSchedYield
  simp only [Option.bind_eq_bind, Option.bind_eq_some_iff]
  exact ⟨s₁, hyield, hsched⟩

end Sys
end ShortSched
