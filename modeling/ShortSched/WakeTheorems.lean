import ShortSched.Machine
import ShortSched.RunqueueTheorems

/-!
# What `activate_task`, `deactivate_task` and `try_to_wake_up` change

For each function of `sched.c` one equation gives the scheduling fields (`TaskSched`) of every
task after the call as a function of the state before it. Beside it stand the frame facts that
the invariants need: which pointers of the runqueue stay, what happens to the `array` fields,
and that only `do_fork` raises a `justGotForked` flag.
-/

namespace ShortSched

/-- The pointers of the runqueue that no operation but `schedule` changes. -/
structure SamePtrs (q q' : RqPtrs) : Prop where
  curr : q'.curr = q.curr
  idle : q'.idle = q.idle
  active : q'.active = q.active
  expired : q'.expired = q.expired
  rtShort : q'.rtShort = q.rtShort
  overdue : q'.overdue = q.overdue

namespace SamePtrs

variable {q q' q'' : RqPtrs}

theorem refl (q : RqPtrs) : SamePtrs q q := ⟨rfl, rfl, rfl, rfl, rfl, rfl⟩

theorem of_eq (h : q' = q) : SamePtrs q q' := h ▸ refl q

theorem trans (h : SamePtrs q q') (h' : SamePtrs q' q'') : SamePtrs q q'' where
  curr := h'.curr.trans h.curr
  idle := h'.idle.trans h.idle
  active := h'.active.trans h.active
  expired := h'.expired.trans h.expired
  rtShort := h'.rtShort.trans h.rtShort
  overdue := h'.overdue.trans h.overdue

end SamePtrs

/-- Two states whose tasks differ at most in what is recorded about them. -/
structure SameTasks (s s' : Sys) : Prop where
  sched : ∀ t, (s'.task t).toTaskSched = (s.task t).toTaskSched
  array : ∀ t, (s'.task t).array = (s.task t).array
  justGotForked : ∀ t, (s'.task t).justGotForked = (s.task t).justGotForked
  pOpptr : ∀ t, (s'.task t).pOpptr = (s.task t).pOpptr

namespace SameTasks

variable {s s' s'' : Sys}

theorem of_task (h : s'.task = s.task) : SameTasks s s' :=
  ⟨fun _ => h ▸ rfl, fun _ => h ▸ rfl, fun _ => h ▸ rfl, fun _ => h ▸ rfl⟩

theorem trans (h : SameTasks s s') (h' : SameTasks s' s'') : SameTasks s s'' where
  sched t := (h'.sched t).trans (h.sched t)
  array t := (h'.array t).trans (h.array t)
  justGotForked t := (h'.justGotForked t).trans (h.justGotForked t)
  pOpptr t := (h'.pOpptr t).trans (h.pOpptr t)

/-- An update that leaves the scheduling fields, the array, the flag and the parent alone. -/
theorem modify {p : TaskId} {f : Task → Task}
    (hsched : (f (s.task p)).toTaskSched = (s.task p).toTaskSched)
    (harray : (f (s.task p)).array = (s.task p).array)
    (hflag : (f (s.task p)).justGotForked = (s.task p).justGotForked)
    (hparent : (f (s.task p)).pOpptr = (s.task p).pOpptr) : SameTasks s (s.modify p f) where
  sched := Sys.modify_proj Task.toTaskSched hsched
  array := Sys.modify_proj (fun t => t.array) harray
  justGotForked := Sys.modify_proj (fun t => t.justGotForked) hflag
  pOpptr := Sys.modify_proj (fun t => t.pOpptr) hparent

theorem setTskNeedResched (p : TaskId) (s : Sys) : SameTasks s (s.setTskNeedResched p) :=
  .modify rfl rfl rfl rfl

theorem setState (p : TaskId) (state : TaskState) (s : Sys) :
    SameTasks s (s.modify p fun t => { t with state := state }) :=
  .modify rfl rfl rfl rfl

/-- States with the same tasks and the same list of tasks take the same fork branches. -/
theorem sameForks (h : SameTasks s s') (hcurr : s'.rq.curr = s.rq.curr)
    (htasklist : s'.tasklist = s.tasklist) : Sys.SameForks s s' where
  curr := hcurr
  tasklist := htasklist
  policy := by rw [Sys.current, hcurr, h.sched]
  iAmOverdue t := by rw [h.sched]
  justGotForked := h.justGotForked
  pOpptr := h.pOpptr

end SameTasks

variable [Param]

/-- A task with the sleep bonus that `activate_task` gives it. -/
def Task.woken (jiffies : UInt32) (t : Task) : Task :=
  if ¬t.RtTask ∧ jiffies - t.sleepTimestamp ≠ 0 then t.creditSleep (jiffies - t.sleepTimestamp)
  else t

/-- The priority depends on the scheduling fields and the sleep average alone. -/
theorem Task.effectivePrio_congr {a b : Task} (hsched : a.toTaskSched = b.toTaskSched)
    (havg : a.sleepAvg = b.sleepAvg) : a.effectivePrio = b.effectivePrio := by
  simp only [effectivePrio, hsched, havg]

/-- The bonus of a wake-up is a matter of the sleep average and the time stamp. -/
theorem Task.woken_congr {a b : Task} (jiffies : UInt32) (hsched : a.toTaskSched = b.toTaskSched)
    (havg : a.sleepAvg = b.sleepAvg) (hstamp : a.sleepTimestamp = b.sleepTimestamp) :
    (a.woken jiffies).toTaskSched = (b.woken jiffies).toTaskSched := by
  have hcredit : ∀ sleepTime, (a.creditSleep sleepTime).toTaskSched =
      (b.creditSleep sleepTime).toTaskSched := by
    intro sleepTime
    simp only [creditSleep, havg]
    split <;> simp only [effectivePrio, hsched]
  unfold woken
  simp only [hsched, hstamp]
  split
  · exact hcredit _
  · exact hsched

/-- The bonus changes `prio` and no other scheduling field. -/
theorem Task.woken_sched (jiffies : UInt32) (t : Task) :
    (t.woken jiffies).toTaskSched = { t.toTaskSched with prio := (t.woken jiffies).prio } := by
  unfold woken
  split
  · simp only [creditSleep]
    split <;> rfl
  · rfl

/-- It changes `sleep_avg` and nothing else that is recorded about the task. -/
theorem Task.woken_info (jiffies : UInt32) (t : Task) :
    (t.woken jiffies).toTaskInfo = { t.toTaskInfo with sleepAvg := (t.woken jiffies).sleepAvg } := by
  unfold woken
  split
  · simp only [creditSleep]
    split <;> rfl
  · rfl

/-- The priority after a wake-up is the old one, or one that `effective_prio` gives. -/
theorem Task.woken_prio (jiffies : UInt32) (t : Task) : (t.woken jiffies).prio = t.prio ∨
    ¬t.RtTask ∧ ∃ sleepAvg, (t.woken jiffies).prio =
      Task.effectivePrio { t with sleepAvg := sleepAvg } := by
  unfold woken
  split
  · next h =>
    right
    simp only [creditSleep]
    split <;> exact ⟨h.1, _, rfl⟩
  · exact .inl rfl

/-- The bonus does not depend on the array. -/
theorem Task.woken_array (jiffies : UInt32) (array : Option PrioArrayPtr) (t : Task) :
    Task.woken jiffies { t with array := array } = { t.woken jiffies with array := array } := by
  simp only [woken, creditSleep]
  split
  · split <;> rfl
  · rfl

/-- A wake-up computes the sleep average and the priority, and nothing else of the task. -/
theorem Task.woken_frame (jiffies : UInt32) (t : Task) :
    (t.woken jiffies).array = t.array ∧ (t.woken jiffies).justGotForked = t.justGotForked ∧
      (t.woken jiffies).pOpptr = t.pOpptr ∧ (t.woken jiffies).state = t.state := by
  unfold woken
  split
  · simp only [creditSleep]
    split <;> exact ⟨rfl, rfl, rfl, rfl⟩
  · exact ⟨rfl, rfl, rfl, rfl⟩

theorem Task.woken_needResched (jiffies : UInt32) (t : Task) :
    (t.woken jiffies).needResched = t.needResched := by
  simp only [woken, creditSleep]
  split
  · split <;> rfl
  · rfl

namespace Sys

variable {s s' : Sys} {p t : TaskId}

/-! ## `activate_task` and `deactivate_task` -/

/-- **`activate_task`** computes the bonus, enqueues the task and counts it. -/
theorem activateTask_eq (p : TaskId) (s : Sys) : s.activateTask p =
    ((s.modify p (Task.woken s.jiffies)).enqueueTask p
      (pointerToMyActivePrioArray (s.task p).toTaskSched s.rq.toRqPtrs)).modifyRq fun rq =>
        { rq with nrRunning := rq.nrRunning + 1 } := by
  have h : (if ¬(s.task p).RtTask ∧ s.jiffies - (s.task p).sleepTimestamp ≠ 0 then
      s.modify p (Task.creditSleep (s.jiffies - (s.task p).sleepTimestamp)) else s)
      = s.modify p (Task.woken s.jiffies) := by
    rw [modify, modify, Task.woken]
    split
    · rfl
    · rw [Function.update_eq_self]
  rw [← h]
  rfl

/-- The bonus of a wake-up does not enter the fork branch. -/
theorem sameForks_woken (p : TaskId) (s : Sys) :
    SameForks s (s.modify p (Task.woken s.jiffies)) where
  curr := rfl
  tasklist := rfl
  policy := modify_proj (fun t => t.policy) (by rw [Task.woken_sched]) _
  iAmOverdue := modify_proj (fun t => t.iAmOverdue) (by rw [Task.woken_sched])
  justGotForked := modify_proj (fun t => t.justGotForked) (Task.woken_frame _ _).2.1
  pOpptr := modify_proj (fun t => t.pOpptr) (Task.woken_frame _ _).2.2.1

/-- A task that is activated, and those that are pulled along, say where they are queued. -/
theorem activateTask_task (p t : TaskId) (s : Sys) : (s.activateTask p).task t =
    { (s.modify p (Task.woken s.jiffies)).task t with
      array := if t = p ∨ t ∈ s.pulled p then
          some (pointerToMyActivePrioArray (s.task p).toTaskSched s.rq.toRqPtrs)
        else (s.task t).array
      justGotForked := if t ∈ s.pulled p then 0 else (s.task t).justGotForked } := by
  have harray := modify_proj (s := s) (p := p) (fun t => t.array) (Task.woken_frame s.jiffies _).1 t
  have hflag := modify_proj (s := s) (p := p) (fun t => t.justGotForked)
    (Task.woken_frame s.jiffies _).2.1 t
  rw [activateTask_eq, modifyRq_task, enqueueTask_task, (sameForks_woken p s).pulled_eq, harray,
    hflag]

@[simp] theorem activateTask_sched (p t : TaskId) (s : Sys) :
    ((s.activateTask p).task t).toTaskSched =
      ((s.modify p (Task.woken s.jiffies)).task t).toTaskSched := by
  rw [activateTask_task]

theorem activateTask_ptrs (p : TaskId) (s : Sys) : (s.activateTask p).rq.toRqPtrs =
    { s.rq.toRqPtrs with nrRunning := s.rq.nrRunning + 1 } := by
  have h := enqueueTask_ptrs (s.modify p (Task.woken s.jiffies)) p
    (pointerToMyActivePrioArray (s.task p).toTaskSched s.rq.toRqPtrs)
  rw [activateTask_eq]
  simp only [modifyRq_rq, h, modify_rq]

/-- The counters after `deactivate_task(p)`. -/
def dropRunning (p : TaskId) (s : Sys) : Sys :=
  s.modifyRq fun rq =>
    { rq with
      nrRunning := rq.nrRunning - 1
      nrUninterruptible := if (s.task p).state = .uninterruptible then rq.nrUninterruptible + 1
        else rq.nrUninterruptible }

omit [Param] in
/-- **`deactivate_task`** of a task that says where it is queued. -/
theorem deactivateTask_eq {array : PrioArrayPtr} (h : (s.task p).array = some array) :
    s.deactivateTask p = some (((s.dropRunning p).dequeueTask p array).modify p fun t =>
      { t with array := none }) := by
  unfold deactivateTask dropRunning
  by_cases hstate : (s.task p).state = .uninterruptible
  · simp [hstate, h]
    rfl
  · simp [hstate, h]

omit [Param] in
/-- It is an oops for a task without an array. -/
theorem deactivateTask_eq_some (h : s.deactivateTask p = some s') :
    ∃ array, (s.task p).array = some array ∧
      s' = ((s.dropRunning p).dequeueTask p array).modify p fun t => { t with array := none } := by
  cases harray : (s.task p).array with
  | none =>
    exfalso
    unfold deactivateTask at h
    by_cases hstate : (s.task p).state = .uninterruptible <;> simp [hstate, harray] at h
  | some array =>
    rw [deactivateTask_eq harray] at h
    exact ⟨array, rfl, (Option.some.inj h).symm⟩

/-! ## `try_to_wake_up` -/

/-- `try_to_wake_up` before it activates the task: migration and `nr_uninterruptible`. -/
def wakePrepare (p : TaskId) (sync : Bool) (s : Sys) : Sys :=
  let s' := if s.FastMigrate p sync then s.modify p fun t => { t with cpu := smpProcessorId } else s
  if (s.task p).state = .uninterruptible then
    s'.modifyRq fun rq => { rq with nrUninterruptible := rq.nrUninterruptible - 1 }
  else s'

/-- `try_to_wake_up` from its comparison of priorities on. -/
def wakeFinish (p : TaskId) (s : Sys) : Sys :=
  let s := if (s.task p).prio < s.current.prio then s.setTskNeedResched s.rq.curr else s
  s.modify p fun t => { t with state := .running }

theorem tryToWakeUp_of_queued {sync : Bool} (h : (s.task p).array ≠ none) :
    (s.tryToWakeUp p sync).2 = s.modify p fun t => { t with state := .running } := by
  rw [tryToWakeUp, if_neg h]

theorem tryToWakeUp_of_sleeping {sync : Bool} (h : (s.task p).array = none) :
    (s.tryToWakeUp p sync).2 = ((s.wakePrepare p sync).activateTask p).wakeFinish p := by
  rw [tryToWakeUp, if_pos h]
  rfl

omit [Param] in
/-- Before `try_to_wake_up` activates a task it sets its CPU at most. -/
theorem sameTasks_wakePrepare (p : TaskId) (sync : Bool) (s : Sys) :
    SameTasks s (s.wakePrepare p sync) := by
  have hcpu : SameTasks s (if s.FastMigrate p sync then
      s.modify p fun t => { t with cpu := smpProcessorId } else s) := by
    split
    · exact .modify rfl rfl rfl rfl
    · exact .of_task rfl
  rw [wakePrepare]
  split
  · exact hcpu.trans (.of_task rfl)
  · exact hcpu

omit [Param] in
theorem sameTasks_wakeFinish (p : TaskId) (s : Sys) : SameTasks s (s.wakeFinish p) := by
  rw [wakeFinish]
  split
  · exact (SameTasks.setTskNeedResched _ s).trans (.setState p .running _)
  · exact .setState p .running s

/-- A wake-up does not switch tasks or arrays. -/
theorem samePtrs_tryToWakeUp (p : TaskId) (sync : Bool) (s : Sys) :
    SamePtrs s.rq.toRqPtrs (s.tryToWakeUp p sync).2.rq.toRqPtrs := by
  by_cases h : (s.task p).array = none
  · have hprepare : SamePtrs s.rq.toRqPtrs (s.wakePrepare p sync).rq.toRqPtrs := by
      rw [wakePrepare]
      split <;> split <;> exact ⟨rfl, rfl, rfl, rfl, rfl, rfl⟩
    have hactivate : SamePtrs (s.wakePrepare p sync).rq.toRqPtrs
        ((s.wakePrepare p sync).activateTask p).rq.toRqPtrs := by
      rw [activateTask_ptrs]
      exact ⟨rfl, rfl, rfl, rfl, rfl, rfl⟩
    rw [tryToWakeUp_of_sleeping h]
    refine hprepare.trans (hactivate.trans (.of_eq ?_))
    rw [wakeFinish]
    split <;> rfl
  · rw [tryToWakeUp_of_queued h]
    exact .refl _

/-- The migration does not change what a task is credited with. -/
theorem woken_wakePrepare (p : TaskId) (sync : Bool) (s : Sys) (jiffies : UInt32) :
    (((s.wakePrepare p sync).task p).woken jiffies).toTaskSched
      = ((s.task p).woken jiffies).toTaskSched := by
  have hproj : ∀ g : Task → UInt32, (∀ t x, g { t with cpu := x } = g t) →
      g ((s.wakePrepare p sync).task p) = g (s.task p) := by
    intro g hg
    have hcpu : g ((s.modify p fun t => { t with cpu := smpProcessorId }).task p) = g (s.task p) :=
      modify_proj g (hg _ _) p
    rw [wakePrepare]
    split <;> split
    · exact hcpu
    · rfl
    · exact hcpu
    · rfl
  exact Task.woken_congr jiffies ((sameTasks_wakePrepare p sync s).sched p)
    (hproj (fun t => t.sleepAvg) fun _ _ => rfl) (hproj (fun t => t.sleepTimestamp) fun _ _ => rfl)

/-- **`try_to_wake_up`** gives a sleeping task its bonus and changes no other scheduling
field. -/
theorem tryToWakeUp_sched (p t : TaskId) (sync : Bool) (s : Sys) :
    ((s.tryToWakeUp p sync).2.task t).toTaskSched =
      if t = p ∧ (s.task p).array = none then ((s.task p).woken s.jiffies).toTaskSched
      else (s.task t).toTaskSched := by
  by_cases h : (s.task p).array = none
  · have hjiffies : (s.wakePrepare p sync).jiffies = s.jiffies := by
      rw [wakePrepare]
      split <;> split <;> rfl
    rw [tryToWakeUp_of_sleeping h, (sameTasks_wakeFinish p _).sched, activateTask_sched]
    by_cases ht : t = p
    · subst ht
      rw [if_pos ⟨rfl, h⟩, modify_task, Function.update_self, hjiffies, woken_wakePrepare]
    · rw [if_neg fun hc => ht hc.1, modify_task, Function.update_of_ne ht,
        (sameTasks_wakePrepare p sync s).sched]
  · rw [tryToWakeUp_of_queued h, if_neg fun hc => h hc.2]
    exact modify_proj Task.toTaskSched rfl t

omit [Param] in
theorem sameForks_wakePrepare (p : TaskId) (sync : Bool) (s : Sys) :
    SameForks s (s.wakePrepare p sync) := by
  refine (sameTasks_wakePrepare p sync s).sameForks ?_ ?_
  · rw [wakePrepare]
    split <;> split <;> rfl
  · rw [wakePrepare]
    split <;> split <;> rfl

/-- **`try_to_wake_up`** queues the task it wakes, and with it the tasks that the fork branch
pulls along, in the array of its class. -/
theorem tryToWakeUp_array (p t : TaskId) (sync : Bool) (s : Sys) :
    ((s.tryToWakeUp p sync).2.task t).array =
      if (s.task p).array = none ∧ (t = p ∨ t ∈ s.pulled p) then
        some (pointerToMyActivePrioArray (s.task p).toTaskSched s.rq.toRqPtrs)
      else (s.task t).array := by
  by_cases h : (s.task p).array = none
  · have hprepare := sameTasks_wakePrepare p sync s
    have hptr : pointerToMyActivePrioArray (s.task p).toTaskSched (s.wakePrepare p sync).rq.toRqPtrs
        = pointerToMyActivePrioArray (s.task p).toTaskSched s.rq.toRqPtrs := by
      rw [wakePrepare]
      split <;> split <;> rfl
    rw [tryToWakeUp_of_sleeping h, (sameTasks_wakeFinish p _).array, activateTask_task,
      hprepare.array, hprepare.sched, hptr, (sameForks_wakePrepare p sync s).pulled_eq]
    simp only [h, true_and]
  · rw [tryToWakeUp_of_queued h, if_neg fun hc => h hc.1]
    exact modify_proj (fun t => t.array) rfl t

/-- A wake-up lowers the flags of the parents that it pulls along. -/
theorem tryToWakeUp_justGotForked (p t : TaskId) (sync : Bool) (s : Sys) :
    ((s.tryToWakeUp p sync).2.task t).justGotForked =
      if (s.task p).array = none ∧ t ∈ s.pulled p then 0 else (s.task t).justGotForked := by
  by_cases h : (s.task p).array = none
  · rw [tryToWakeUp_of_sleeping h, (sameTasks_wakeFinish p _).justGotForked, activateTask_task,
      (sameTasks_wakePrepare p sync s).justGotForked, (sameForks_wakePrepare p sync s).pulled_eq]
    simp only [h, true_and]
  · rw [tryToWakeUp_of_queued h, if_neg fun hc => h hc.1]
    exact modify_proj (fun t => t.justGotForked) rfl t
/-- The parent of a task is not changed by a wake-up, and the state of no other task. -/
theorem tryToWakeUp_frame (p t : TaskId) (sync : Bool) (s : Sys) :
    ((s.tryToWakeUp p sync).2.task t).pOpptr = (s.task t).pOpptr ∧
      (t ≠ p → ((s.tryToWakeUp p sync).2.task t).state = (s.task t).state) := by
  by_cases h : (s.task p).array = none
  · have hprepare : ((s.wakePrepare p sync).task t).state = (s.task t).state := by
      have hcpu : ((s.modify p fun t => { t with cpu := smpProcessorId }).task t).state
          = (s.task t).state := modify_proj (fun t => t.state) rfl t
      rw [wakePrepare]
      split
      · split
        · exact hcpu
        · rfl
      · split
        · exact hcpu
        · rfl
    have hfinish : ∀ s : Sys, t ≠ p → ((s.wakeFinish p).task t).state = (s.task t).state := by
      intro s ht
      rw [wakeFinish, modify_task, Function.update_of_ne ht]
      split
      · exact modify_proj (fun t => t.state) rfl t
      · rfl
    rw [tryToWakeUp_of_sleeping h]
    constructor
    · rw [(sameTasks_wakeFinish p _).pOpptr, activateTask_task]
      exact (modify_proj (fun t => t.pOpptr) (Task.woken_frame _ _).2.2.1 t).trans
        ((sameTasks_wakePrepare p sync s).pOpptr t)
    · intro ht
      rw [hfinish _ ht, activateTask_task]
      exact (modify_proj (fun t => t.state) (Task.woken_frame _ _).2.2.2 t).trans hprepare
  · rw [tryToWakeUp_of_queued h]
    exact ⟨modify_proj (fun t => t.pOpptr) rfl t, fun ht => by simp [ht]⟩

end Sys
end ShortSched
