import ShortSched.WakeTheorems

/-!
# What `setscheduler` changes

`setscheduler` never fails once it has its target, and what it does to the target is one of
three updates: a new request of a SHORT task (`adjustShort`), an OTHER task made SHORT
(`makeShort`), or a change among the other policies (`setPolicy`).
-/

namespace ShortSched

/-! ## The updates of the target -/

section updates
variable [Param]

/-- A SHORT task asks for another time. -/
def Task.adjustShort (lp : SchedParam) (t : Task) : Task :=
  { t with
    requestedTime := changeMsToJiffis lp.requestedTime
    timeSlice := t.timeSlice + (changeMsToJiffis lp.requestedTime - t.requestedTime).toUInt32 }

/-- A task becomes SHORT. -/
def Task.makeShort (lp : SchedParam) (t : Task) : Task :=
  { t with
    policy := .short
    requestedTime := changeMsToJiffis lp.requestedTime
    iWasShort := 1
    timeSlice := (changeMsToJiffis lp.requestedTime).toUInt32 }

end updates

/-- A task changes among the policies other than SHORT. -/
def Task.setPolicy (policy : Policy) (lp : SchedParam) (t : Task) : Task :=
  { t with
    policy := policy
    rtPriority := lp.schedPriority.toInt
    prio := if policy ≠ .other then maxUserRtPrio - 1 - lp.schedPriority.toInt else t.staticPrio }

/-- Two states that differ at most in the `flags` of tasks, as `capable` leaves them. -/
structure SameButFlags (s s' : Sys) : Prop where
  task : ∀ t, ∃ flags, s'.task t = { s.task t with flags := flags }
  rq : s'.rq = s.rq
  jiffies : s'.jiffies = s.jiffies
  tasklist : s'.tasklist = s.tasklist
  forking : s'.forking = s.forking

namespace SameButFlags

variable {s s' s'' : Sys}

theorem refl (s : Sys) : SameButFlags s s :=
  ⟨fun t => ⟨(s.task t).flags, rfl⟩, rfl, rfl, rfl, rfl⟩

/-- Changes of flags add up to changes of flags. -/
theorem trans (h : SameButFlags s s') (h' : SameButFlags s' s'') : SameButFlags s s'' where
  task t := by
    obtain ⟨_, hf⟩ := h.task t
    obtain ⟨flags, hf'⟩ := h'.task t
    exact ⟨flags, by rw [hf', hf]⟩
  rq := h'.rq.trans h.rq
  jiffies := h'.jiffies.trans h.jiffies
  tasklist := h'.tasklist.trans h.tasklist
  forking := h'.forking.trans h.forking

theorem sameTasks (h : SameButFlags s s') : SameTasks s s' where
  sched t := by obtain ⟨_, hf⟩ := h.task t; rw [hf]
  array t := by obtain ⟨_, hf⟩ := h.task t; rw [hf]
  justGotForked t := by obtain ⟨_, hf⟩ := h.task t; rw [hf]
  pOpptr t := by obtain ⟨_, hf⟩ := h.task t; rw [hf]

theorem sameForks (h : SameButFlags s s') : Sys.SameForks s s' :=
  h.sameTasks.sameForks (by rw [h.rq]) h.tasklist

end SameButFlags

/-! ## Privileges -/

namespace Sys

variable {s s' s'' : Sys} {p : TaskId}

/-- The state that a check of a privilege leaves: `PF_SUPERPRIV` of `current` may be set. -/
def UsedPrivilege (s s' : Sys) : Prop :=
  s' = s ∨ s' = s.modify s.rq.curr fun t => { t with flags := t.flags ||| pfSuperpriv }

namespace UsedPrivilege

theorem refl (s : Sys) : UsedPrivilege s s := .inl rfl

theorem trans (h : UsedPrivilege s s') (h' : UsedPrivilege s' s'') : UsedPrivilege s s'' := by
  rcases h with rfl | rfl
  · exact h'
  · right
    rcases h' with rfl | rfl
    · rfl
    · simp [modify, UInt32.or_assoc]

/-- `capable` sets `PF_SUPERPRIV` at most. -/
theorem sameButFlags (h : UsedPrivilege s s') : SameButFlags s s' := by
  rcases h with rfl | rfl
  · exact .refl s'
  · refine ⟨fun t => ?_, rfl, rfl, rfl, rfl⟩
    by_cases ht : t = s.rq.curr
    · subst ht
      exact ⟨s.current.flags ||| pfSuperpriv, by simp⟩
    · exact ⟨(s.task t).flags, by simp [ht]⟩

/-- What the checks of `setscheduler` look at stays. -/
theorem current_eq (h : UsedPrivilege s s') : s'.current.capSysNice = s.current.capSysNice ∧
    s'.current.euid = s.current.euid ∧ ∀ t, (s'.task t).euid = (s.task t).euid ∧
      (s'.task t).uid = (s.task t).uid := by
  rcases h with rfl | rfl
  · exact ⟨rfl, rfl, fun _ => ⟨rfl, rfl⟩⟩
  · exact ⟨modify_proj (fun t => t.capSysNice) rfl _, modify_proj (fun t => t.euid) rfl _,
      fun t => ⟨modify_proj (fun t => t.euid) rfl t, modify_proj (fun t => t.uid) rfl t⟩⟩

end UsedPrivilege

theorem usedPrivilege_capableSysNice (s : Sys) : UsedPrivilege s s.capableSysNice.2 := by
  unfold capableSysNice
  split
  · exact .inr rfl
  · exact .refl s

theorem sameButFlags_capableSysNice (s : Sys) : SameButFlags s s.capableSysNice.2 :=
  s.usedPrivilege_capableSysNice.sameButFlags

/-- A check of the privilege that is made only if `c` holds. -/
theorem capableSysNice_if (c : Prop) [Decidable c] (s : Sys) : ∃ s', UsedPrivilege s s' ∧
    (if c then s.capableSysNice else (true, s)) =
      (decide (c → s.current.capSysNice = true), s') := by
  by_cases hc : c
  · refine ⟨_, s.usedPrivilege_capableSysNice, ?_⟩
    rw [if_pos hc, capableSysNice]
    by_cases hcap : s.current.capSysNice = true <;> simp [hc, hcap]
  · exact ⟨s, .refl s, by rw [if_neg hc, decide_eq_true fun h => absurd h hc]⟩

/-- The priority of a call fits the policy that it asks for. -/
abbrev ValidPriority (policy : Policy) (lp : SchedParam) : Prop :=
  (0 ≤ lp.schedPriority.toInt ∧ lp.schedPriority.toInt ≤ maxUserRtPrio - 1) ∧
    (policy = .other ↔ lp.schedPriority.toInt = 0)

/-- The caller may give `p` the policy. -/
abbrev MayChange (s : Sys) (p : TaskId) (policy : Policy) : Prop :=
  (policy = .fifo ∨ policy = .rr → s.current.capSysNice = true) ∧
    (s.current.euid ≠ (s.task p).euid ∧ s.current.euid ≠ (s.task p).uid →
      s.current.capSysNice = true)

end Sys

variable [Param]

namespace Sys

variable {s s' : Sys} {p t : TaskId}

/-! ## `deactivate_task`, an update, `activate_task` -/

/-- The result of `requeue`. -/
def requeued (p : TaskId) (f : Task → Task) (s : Sys) : Sys :=
  match (s.task p).array with
  | none => s.modify p f
  | some array =>
    ((((s.dropRunning p).dequeueTask p array).modify p fun t => { t with array := none }).modify p
      f).activateTask p

/-- **A task that is requeued** never meets an oops: it is dequeued only from its own array. -/
theorem requeue_eq (p : TaskId) (f : Task → Task) (s : Sys) :
    s.requeue p f = some (s.requeued p f) := by
  unfold requeue requeued
  cases harray : (s.task p).array with
  | none => rfl
  | some array =>
    rw [deactivateTask_eq harray]
    rfl

/-- To requeue a task switches neither tasks nor arrays. -/
theorem samePtrs_requeued (p : TaskId) (f : Task → Task) (s : Sys) :
    SamePtrs s.rq.toRqPtrs (s.requeued p f).rq.toRqPtrs := by
  unfold requeued
  split
  · exact .refl _
  · next array harray =>
    rw [activateTask_ptrs, modify_rq, modify_rq, dequeueTask_ptrs]
    exact ⟨rfl, rfl, rfl, rfl, rfl, rfl⟩

/-- The state that `requeue` hands to `activate_task`: the target is out of its array and has its
update. -/
def dequeued (p : TaskId) (f : Task → Task) (array : PrioArrayPtr) (s : Sys) : Sys :=
  (((s.dropRunning p).dequeueTask p array).modify p fun t => { t with array := none }).modify p f

theorem requeued_of_queued {array : PrioArrayPtr} (harray : (s.task p).array = some array)
    (f : Task → Task) : s.requeued p f = (s.dequeued p f array).activateTask p := by
  rw [requeued, harray]
  rfl

omit [Param] in
theorem samePtrs_dequeued (p : TaskId) (f : Task → Task) (array : PrioArrayPtr) (s : Sys) :
    SamePtrs s.rq.toRqPtrs (s.dequeued p f array).rq.toRqPtrs := by
  rw [dequeued, modify_rq, modify_rq, dequeueTask_ptrs]
  exact ⟨rfl, rfl, rfl, rfl, rfl, rfl⟩

section requeued

variable {f : Task → Task} (hf : ∀ t : Task, f { t with array := none } = { f t with array := none })

include hf

omit [Param] in
/-- The task that is taken out says that it is in no array. -/
theorem dequeued_task (p t : TaskId) (array : PrioArrayPtr) (s : Sys) :
    (s.dequeued p f array).task t =
      { (s.modify p f).task t with
        array := if t = p then none else ((s.modify p f).task t).array } := by
  by_cases ht : t = p
  · subst ht
    simp only [dequeued, modify_task, Function.update_self, dequeueTask_task, hf, if_true]
    rfl
  · simp [dequeued, ht, dropRunning]

omit [Param] in
/-- A dequeued task is the same to the fork branch. -/
theorem sameForks_dequeued (p : TaskId) (array : PrioArrayPtr) (s : Sys) :
    SameForks (s.modify p f) (s.dequeued p f array) where
  curr := (samePtrs_dequeued p f array s).curr
  tasklist := by simp [dequeued, dropRunning]
  policy := by
    rw [current, (samePtrs_dequeued p f array s).curr, dequeued_task hf]
    rfl
  iAmOverdue t := by rw [dequeued_task hf]
  justGotForked t := by rw [dequeued_task hf]
  pOpptr t := by rw [dequeued_task hf]

/-- **`requeue`** on a queued task updates it, gives it a sleep bonus and queues it where its new
class belongs, along with the tasks that the fork branch pulls. -/
theorem requeued_task {array : PrioArrayPtr} (harray : (s.task p).array = some array) (t : TaskId) :
    (s.requeued p f).task t =
      { (s.modify p fun u => (f u).woken s.jiffies).task t with
        array := if t = p ∨ t ∈ (s.modify p f).pulled p then
            some (pointerToMyActivePrioArray (f (s.task p)).toTaskSched s.rq.toRqPtrs)
          else (s.task t).array
        justGotForked := if t ∈ (s.modify p f).pulled p then 0
          else ((s.modify p f).task t).justGotForked } := by
  have hptrs := samePtrs_dequeued p f array s
  have hptr : pointerToMyActivePrioArray ((s.dequeued p f array).task p).toTaskSched
      (s.dequeued p f array).rq.toRqPtrs =
        pointerToMyActivePrioArray (f (s.task p)).toTaskSched s.rq.toRqPtrs := by
    rw [dequeued_task hf, modify_task, Function.update_self]
    simp only [pointerToMyActivePrioArray, hptrs.rtShort, hptrs.overdue, hptrs.active]
  have hjiffies : (s.dequeued p f array).jiffies = s.jiffies := by simp [dequeued, dropRunning]
  rw [requeued_of_queued harray, activateTask_task, (sameForks_dequeued hf p array s).pulled_eq,
    hptr, hjiffies]
  by_cases ht : t = p
  · subst ht
    simp only [modify_task, Function.update_self, dequeued_task hf, true_or, if_true,
      Task.woken_array]
  · simp only [modify_task, Function.update_of_ne ht, dequeued_task hf, ht, if_false]

/-- **`requeue`** updates its target, which gets a sleep bonus if it was queued, and no other
task's scheduling fields. -/
theorem requeued_sched (p t : TaskId) (s : Sys) : ((s.requeued p f).task t).toTaskSched =
      if t = p then
        if (s.task p).array = none then (f (s.task p)).toTaskSched
        else ((f (s.task p)).woken s.jiffies).toTaskSched
      else (s.task t).toTaskSched := by
  cases harray : (s.task p).array with
  | none =>
    rw [requeued, harray, modify_task]
    by_cases ht : t = p
    · rw [ht, Function.update_self, if_pos rfl, if_pos rfl]
    · rw [Function.update_of_ne ht, if_neg ht]
  | some array =>
    rw [requeued_task hf harray, if_neg (Option.some_ne_none array), modify_task]
    by_cases ht : t = p
    · rw [ht, Function.update_self, if_pos rfl]
    · rw [Function.update_of_ne ht, if_neg ht]

/-- What is recorded about the other tasks stays. -/
theorem requeued_info (p t : TaskId) (s : Sys) : ((s.requeued p f).task t).toTaskInfo =
      if t = p then
        if (s.task p).array = none then (f (s.task p)).toTaskInfo
        else ((f (s.task p)).woken s.jiffies).toTaskInfo
      else (s.task t).toTaskInfo := by
  cases harray : (s.task p).array with
  | none =>
    rw [requeued, harray, modify_task]
    by_cases ht : t = p
    · rw [ht, Function.update_self, if_pos rfl, if_pos rfl]
    · rw [Function.update_of_ne ht, if_neg ht]
  | some array =>
    rw [requeued_task hf harray, if_neg (Option.some_ne_none array), modify_task]
    by_cases ht : t = p
    · rw [ht, Function.update_self, if_pos rfl]
    · rw [Function.update_of_ne ht, if_neg ht]

/-- `requeue` moves no task whose flag is down but its target, which it leaves queued where its
new class belongs. -/
theorem requeued_frame (hflag : (s.task t).justGotForked = 0)
    (hframe : ∀ t : Task, (f t).array = t.array ∧ (f t).justGotForked = t.justGotForked ∧
      (f t).pOpptr = t.pOpptr ∧ (f t).state = t.state) (p : TaskId) :
    ((s.requeued p f).task t).array =
        (if t = p then (s.task p).array.map fun _ => pointerToMyActivePrioArray
          (f (s.task p)).toTaskSched s.rq.toRqPtrs
        else (s.task t).array) ∧
      ((s.requeued p f).task t).justGotForked = 0 ∧
      ((s.requeued p f).task t).pOpptr = (s.task t).pOpptr ∧
      ((s.requeued p f).task t).state = (s.task t).state := by
  have hflag' : ((s.modify p f).task t).justGotForked = 0 :=
    (modify_proj (fun t => t.justGotForked) (hframe _).2.1 t).trans hflag
  cases harray : (s.task p).array with
  | none =>
    rw [requeued, harray]
    refine ⟨?_, hflag', modify_proj (fun t => t.pOpptr) (hframe _).2.2.1 t,
      modify_proj (fun t => t.state) (hframe _).2.2.2 t⟩
    rw [modify_proj (fun t => t.array) (hframe _).1]
    split
    · next ht => rw [ht, harray]; rfl
    · rfl
  | some array =>
    have hpulled : t ∉ (s.modify p f).pulled p := fun ht => justGotForked_of_mem_pulled ht hflag'
    have hwoken := fun u => Task.woken_frame s.jiffies (f u)
    rw [requeued_task hf harray]
    simp only [hpulled, or_false, if_false, hflag']
    exact ⟨rfl, trivial, modify_proj (fun t => t.pOpptr) ((hwoken _).2.2.1.trans (hframe _).2.2.1) t,
      modify_proj (fun t => t.state) ((hwoken _).2.2.2.trans (hframe _).2.2.2) t⟩

end requeued

/-! ## The cases of `setscheduler` -/

/-- The system call names the task `p` and hands over the parameter block `lp`. -/
structure Target (s : Sys) (pid : ℤ) (param : UserParam) (p : TaskId) (lp : SchedParam) : Prop where
  param_eq : param = .valid lp
  pid_nonneg : 0 ≤ pid
  found : s.findProcessByPid pid = some p

/-- The policy that a call asks for. -/
def requestedPolicy (s : Sys) (p : TaskId) (policy : ℤ) : Option Policy :=
  if policy < 0 then some (s.task p).policy else Policy.ofInt? policy

/-- The caller may make `p` SHORT. -/
abbrev MayShorten (s : Sys) (p : TaskId) : Prop :=
  s.current.euid = (s.task p).euid ∨ s.current.euid = 0

/-- What `setscheduler` does, case by case, with its return value. -/
inductive SetschedCase (s : Sys) (pid policy : ℤ) (param : UserParam) : ℤ × Sys → Prop
  | refused {r : ℤ} {s' : Sys} (hr : r < 0) (h : SameButFlags s s') :
      SetschedCase s pid policy param (r, s')
  | adjusted {p : TaskId} {lp : SchedParam} (target : Target s pid param p lp)
      (hshort : (s.task p).policy = .short) (hpolicy : policy < 0 ∨ Policy.ofInt? policy = some .short)
      (hle : lp.requestedTime ≤ 3000)
      (hgt : (changeMsToJiffis lp.requestedTime).toUInt32 >
        (s.task p).requestedTime.toUInt32 - (s.task p).timeSlice)
      (hmay : s.MayShorten p) :
      SetschedCase s pid policy param
        (0, (s.modify p (Task.adjustShort lp)).setTskNeedResched s.rq.curr)
  | madeShort {p : TaskId} {lp : SchedParam} (target : Target s pid param p lp)
      (hother : (s.task p).policy = .other) (hpolicy : 0 ≤ policy ∧ Policy.ofInt? policy = some .short)
      (hle : lp.requestedTime ≤ 3000)
      (hge : minRequestedTime ≤ changeMsToJiffis lp.requestedTime)
      (hmay : s.MayShorten p) :
      SetschedCase s pid policy param
        (0, (s.requeued p (Task.makeShort lp)).setTskNeedResched s.rq.curr)
  | changed {p : TaskId} {lp : SchedParam} {policy' : Policy} {s₁ : Sys}
      (target : Target s pid param p lp) (hnot : (s.task p).policy ≠ .short)
      (hnew : policy' ≠ .short)
      (hprio : 0 ≤ lp.schedPriority.toInt ∧ lp.schedPriority.toInt ≤ maxUserRtPrio - 1)
      (hiff : policy' = .other ↔ lp.schedPriority.toInt = 0) (hsame : SameButFlags s s₁) :
      SetschedCase s pid policy param (0, s₁.requeued p (Task.setPolicy policy' lp))

/-- The change of a SHORT task that is allowed to be made. -/
theorem changeToShort_adjust {p : TaskId} {lp : SchedParam} (hshort : (s.task p).policy = .short) :
    s.changeToShort p lp = some (if s.MayShorten p then
      (0, (s.modify p (Task.adjustShort lp)).setTskNeedResched s.rq.curr) else (-ePERM, s)) := by
  unfold changeToShort
  by_cases hmay : s.MayShorten p
  · have hperm : ¬(s.current.euid ≠ (s.task p).euid ∧ s.current.euid ≠ 0) := by
      rcases hmay with h | h <;> simp [h]
    rw [if_neg hperm, if_pos hmay]
    simp only [if_pos hshort]
    simp [setTskNeedResched, modify, Task.adjustShort]
  · have hperm : s.current.euid ≠ (s.task p).euid ∧ s.current.euid ≠ 0 := not_or.mp hmay
    rw [if_pos hperm, if_neg hmay]
    rfl

/-- The change of another task to SHORT. -/
theorem changeToShort_make {p : TaskId} {lp : SchedParam} (hshort : (s.task p).policy ≠ .short) :
    s.changeToShort p lp = some (if s.MayShorten p then
      (0, (s.requeued p (Task.makeShort lp)).setTskNeedResched s.rq.curr) else (-ePERM, s)) := by
  unfold changeToShort
  by_cases hmay : s.MayShorten p
  · have hperm : ¬(s.current.euid ≠ (s.task p).euid ∧ s.current.euid ≠ 0) := by
      rcases hmay with h | h <;> simp [h]
    have hcurr := (samePtrs_requeued p (Task.makeShort lp) s).curr
    rw [if_neg hperm, if_pos hmay]
    simp only [if_neg hshort]
    rw [requeue_eq]
    change some (0, (s.requeued p (Task.makeShort lp)).setTskNeedResched
      (s.requeued p (Task.makeShort lp)).rq.curr) = _
    rw [hcurr]
  · have hperm : s.current.euid ≠ (s.task p).euid ∧ s.current.euid ≠ 0 := not_or.mp hmay
    rw [if_pos hperm, if_neg hmay]
    rfl

/-- A call with a target is decided under the lock of the target's runqueue. -/
theorem setscheduler_of_target {pid policy : ℤ} {param : UserParam} {lp : SchedParam}
    (target : Target s pid param p lp) :
    s.setscheduler pid policy param = s.setschedulerTask p policy lp := by
  obtain ⟨rfl, hpid, hfound⟩ := target
  have harg : ¬(UserParam.valid lp = .null ∨ pid < 0) := by
    rintro (hnull | hneg)
    · cases hnull
    · omega
  rw [setscheduler, if_neg harg]
  simp only [hfound]

omit [Param] in
/-- The error codes are negative. -/
theorem error_ne_zero {e : ℤ} (he : 0 < e) : some (-e, s) ≠ some (0, s') := by
  intro h
  have hzero : -e = 0 := congrArg Prod.fst (Option.some.inj h)
  omega

/-- What a call with a target does under the policy that it asks for. -/
theorem setscheduler_of_request {pid policy : ℤ} {param : UserParam} {lp : SchedParam}
    {policy' : Policy} (target : Target s pid param p lp)
    (hrequest : s.requestedPolicy p policy = some policy') :
    s.setscheduler pid policy param =
      if (s.task p).policy = .short then
        if policy' = .short then
          if lp.requestedTime ≤ 3000 ∧ (changeMsToJiffis lp.requestedTime).toUInt32 >
              (s.task p).requestedTime.toUInt32 - (s.task p).timeSlice then
            s.changeToShort p lp
          else some (-eINVAL, s)
        else some (-ePERM, s)
      else if policy' = .short then
        if (s.task p).policy = .fifo ∨ (s.task p).policy = .rr then some (-eINVAL, s)
        else if lp.requestedTime > 3000 ∨
            changeMsToJiffis lp.requestedTime < minRequestedTime then
          some (-eINVAL, s)
        else s.changeToShort p lp
      else s.changePolicy p policy' lp := by
  rw [requestedPolicy] at hrequest
  rw [setscheduler_of_target target, setschedulerTask, hrequest]

theorem setscheduler_of_no_policy {pid policy : ℤ} {param : UserParam} {lp : SchedParam}
    (target : Target s pid param p lp) (hrequest : s.requestedPolicy p policy = none) :
    s.setscheduler pid policy param = some (-eINVAL, s) := by
  rw [requestedPolicy] at hrequest
  rw [setscheduler_of_target target, setschedulerTask, hrequest]

/-- The conditions under which a SHORT task gets another time. -/
theorem setscheduler_of_adjust {pid policy : ℤ} {param : UserParam} {lp : SchedParam}
    (target : Target s pid param p lp) (hshort : (s.task p).policy = .short)
    (hpolicy : policy < 0 ∨ Policy.ofInt? policy = some .short)
    (hle : lp.requestedTime ≤ 3000)
    (hgt : (changeMsToJiffis lp.requestedTime).toUInt32 >
      (s.task p).requestedTime.toUInt32 - (s.task p).timeSlice) (hmay : s.MayShorten p) :
    s.setscheduler pid policy param =
      some (0, (s.modify p (Task.adjustShort lp)).setTskNeedResched s.rq.curr) := by
  have hrequest : s.requestedPolicy p policy = some .short := by
    rw [requestedPolicy]
    split
    · rw [hshort]
    · next hneg => exact hpolicy.resolve_left hneg
  rw [setscheduler_of_request target hrequest, if_pos hshort, if_pos rfl, if_pos ⟨hle, hgt⟩,
    changeToShort_adjust hshort, if_pos hmay]

/-- What a call that asks an OTHER task to become SHORT does. -/
theorem setscheduler_of_other_short {pid policy : ℤ} {param : UserParam} {lp : SchedParam}
    (target : Target s pid param p lp) (hother : (s.task p).policy = .other)
    (hrequest : s.requestedPolicy p policy = some .short) :
    s.setscheduler pid policy param = some (
      if lp.requestedTime > 3000 ∨ changeMsToJiffis lp.requestedTime < minRequestedTime then
        (-eINVAL, s)
      else if s.MayShorten p then
        (0, (s.requeued p (Task.makeShort lp)).setTskNeedResched s.rq.curr)
      else (-ePERM, s)) := by
  have hnot : (s.task p).policy ≠ .short := by
    rw [hother]
    decide
  have hrt : ¬((s.task p).policy = .fifo ∨ (s.task p).policy = .rr) := by
    rw [hother]
    decide
  rw [setscheduler_of_request target hrequest, if_neg hnot, if_pos rfl, if_neg hrt,
    changeToShort_make hnot]
  exact (apply_ite some _ _ _).symm

/-- The conditions under which an OTHER task becomes SHORT. -/
theorem setscheduler_of_make {pid policy : ℤ} {param : UserParam} {lp : SchedParam}
    (target : Target s pid param p lp) (hother : (s.task p).policy = .other)
    (hpolicy : Policy.ofInt? policy = some .short) (hle : lp.requestedTime ≤ 3000)
    (hge : minRequestedTime ≤ changeMsToJiffis lp.requestedTime) (hmay : s.MayShorten p) :
    s.setscheduler pid policy param =
      some (0, (s.requeued p (Task.makeShort lp)).setTskNeedResched s.rq.curr) := by
  have hpos : ¬policy < 0 := by
    intro hneg
    have hnone : Policy.ofInt? policy = none := by
      unfold Policy.ofInt?
      rw [if_neg (by omega), if_neg (by omega), if_neg (by omega), if_neg (by omega)]
    rw [hnone] at hpolicy
    cases hpolicy
  have hrequest : s.requestedPolicy p policy = some .short := by
    rw [requestedPolicy, if_neg hpos, hpolicy]
  have hreq : ¬(lp.requestedTime > 3000 ∨
      changeMsToJiffis lp.requestedTime < minRequestedTime) := by
    rw [not_or, Int32.not_lt, Int32.not_lt]
    exact ⟨hle, hge⟩
  rw [setscheduler_of_other_short target hother hrequest, if_neg hreq, if_pos hmay]

/-- What the end of `setscheduler` does with a task: it refuses, or puts the task back under the
new policy. -/
inductive ChangeCase (s : Sys) (p : TaskId) (policy : Policy) (lp : SchedParam) : ℤ × Sys → Prop
  | refused {r : ℤ} {s' : Sys} (hr : r < 0) (h : SameButFlags s s') : ChangeCase s p policy lp (r, s')
  | changed {s₁ : Sys}
      (hprio : 0 ≤ lp.schedPriority.toInt ∧ lp.schedPriority.toInt ≤ maxUserRtPrio - 1)
      (hiff : policy = .other ↔ lp.schedPriority.toInt = 0) (hsame : SameButFlags s s₁) :
      ChangeCase s p policy lp (0, s₁.requeued p (Task.setPolicy policy lp))

/-- The end of `setscheduler` refuses, or puts the task back under the new policy. -/
theorem changePolicy_eq (s : Sys) (p : TaskId) (policy : Policy) (lp : SchedParam) :
    ∃ s₁, UsedPrivilege s s₁ ∧ s.changePolicy p policy lp = some (
      if ¬ValidPriority policy lp then (-eINVAL, s₁)
      else if s.MayChange p policy then (0, s₁.requeued p (Task.setPolicy policy lp))
      else (-ePERM, s₁)) := by
  unfold changePolicy
  by_cases hprio : lp.schedPriority.toInt < 0 ∨ lp.schedPriority.toInt > maxUserRtPrio - 1
  · have hinvalid : ¬ValidPriority policy lp := by
      rintro ⟨⟨h0, h1⟩, -⟩
      omega
    exact ⟨s, .refl s, by rw [if_pos hprio, if_pos hinvalid]; rfl⟩
  by_cases hiff : policy = .other ↔ lp.schedPriority.toInt = 0
  swap
  · exact ⟨s, .refl s, by rw [if_neg hprio, if_pos hiff, if_pos fun h => hiff h.2]; rfl⟩
  have hvalid : ValidPriority policy lp := by
    rw [not_or, not_lt, not_lt] at hprio
    exact ⟨hprio, hiff⟩
  rw [if_neg hprio, if_neg (not_not.mpr hiff)]
  simp only [if_neg (not_not.mpr hvalid)]
  -- the privilege for a real-time policy
  obtain ⟨s₁, h₁, heq₁⟩ := capableSysNice_if (policy = .fifo ∨ policy = .rr) s
  rw [heq₁]
  by_cases hrt : policy = .fifo ∨ policy = .rr → s.current.capSysNice = true
  swap
  · have hmay : ¬s.MayChange p policy := fun h => hrt h.1
    refine ⟨s₁, h₁, ?_⟩
    rw [decide_eq_false hrt, if_neg hmay]
    rfl
  -- the privilege for another user's task
  obtain ⟨s₂, h₂, heq₂⟩ := capableSysNice_if
    (s₁.current.euid ≠ (s₁.task p).euid ∧ s₁.current.euid ≠ (s₁.task p).uid) s₁
  obtain ⟨hcap, heuid, htask⟩ := h₁.current_eq
  refine ⟨s₂, h₁.trans h₂, ?_⟩
  rw [decide_eq_true hrt]
  dsimp only
  rw [if_neg (by simp), heq₂]
  simp only [hcap, heuid, (htask p).1, (htask p).2]
  by_cases hother : s.current.euid ≠ (s.task p).euid ∧ s.current.euid ≠ (s.task p).uid →
      s.current.capSysNice = true
  swap
  · have hmay : ¬s.MayChange p policy := fun h => hother h.2
    rw [decide_eq_false hother, if_neg hmay]
    rfl
  have hset : (fun t : Task =>
      let t := { t with policy := policy, rtPriority := lp.schedPriority.toInt }
      if policy ≠ .other then { t with prio := maxUserRtPrio - 1 - t.rtPriority }
      else { t with prio := t.staticPrio }) = Task.setPolicy policy lp := by
    ext t
    rw [Task.setPolicy]
    split <;> rfl
  have hmay : s.MayChange p policy := ⟨hrt, hother⟩
  rw [decide_eq_true hother, if_pos hmay, ← hset]
  dsimp only
  rw [if_neg (by simp), requeue_eq]
  rfl

/-- **The end of `setscheduler`**, by the policies before and after. -/
theorem changePolicy_cases (s : Sys) (p : TaskId) (policy : Policy) (lp : SchedParam) :
    ∃ r, s.changePolicy p policy lp = some r ∧ ChangeCase s p policy lp r := by
  obtain ⟨s₁, hused, heq⟩ := s.changePolicy_eq p policy lp
  refine ⟨_, heq, ?_⟩
  split
  · exact .refused (by decide) hused.sameButFlags
  · next hvalid =>
    split
    · exact .changed (not_not.mp hvalid).1 (not_not.mp hvalid).2 hused.sameButFlags
    · exact .refused (by decide) hused.sameButFlags

/-- **`setscheduler` once it has a target and parameters**: each outcome is one of the cases. -/
theorem setschedulerTask_cases {pid policy : ℤ} {param : UserParam} {lp : SchedParam}
    (target : Target s pid param p lp) :
    ∃ r, s.setschedulerTask p policy lp = some r ∧ SetschedCase s pid policy param r := by
  have hrefuse : ∀ e : ℤ, 0 < e → SetschedCase s pid policy param (-e, s) := fun e he =>
    .refused (by omega) (.refl s)
  unfold setschedulerTask
  cases hpolicy : (if policy < 0 then some (s.task p).policy else Policy.ofInt? policy) with
  | none => exact ⟨_, rfl, hrefuse eINVAL (by decide)⟩
  | some policy' =>
    dsimp only
    by_cases hshort : (s.task p).policy = .short
    · rw [if_pos hshort]
      by_cases hnew : policy' = .short
      swap
      · exact ⟨_, by rw [if_neg hnew], hrefuse ePERM (by decide)⟩
      rw [if_pos hnew]
      by_cases hreq : lp.requestedTime ≤ 3000 ∧ (changeMsToJiffis lp.requestedTime).toUInt32 >
          (s.task p).requestedTime.toUInt32 - (s.task p).timeSlice
      swap
      · exact ⟨_, by rw [if_neg hreq], hrefuse eINVAL (by decide)⟩
      rw [if_pos hreq, changeToShort_adjust hshort]
      by_cases hmay : s.MayShorten p
      · refine ⟨_, by rw [if_pos hmay], .adjusted target hshort ?_ hreq.1 hreq.2 hmay⟩
        by_cases hneg : policy < 0
        · exact .inl hneg
        · rw [if_neg hneg, hnew] at hpolicy
          exact .inr hpolicy
      · exact ⟨_, by rw [if_neg hmay], hrefuse ePERM (by decide)⟩
    · rw [if_neg hshort]
      by_cases hnew : policy' = .short
      swap
      · obtain ⟨r, hr, hcase⟩ := s.changePolicy_cases p policy' lp
        refine ⟨r, by rw [if_neg hnew, hr], ?_⟩
        cases hcase with
        | refused hneg h => exact .refused hneg h
        | changed hprio hiff hsame => exact .changed target hshort hnew hprio hiff hsame
      rw [if_pos hnew]
      by_cases hrt : (s.task p).policy = .fifo ∨ (s.task p).policy = .rr
      · exact ⟨_, by rw [if_pos hrt], hrefuse eINVAL (by decide)⟩
      rw [if_neg hrt]
      by_cases hreq : lp.requestedTime > 3000 ∨
          changeMsToJiffis lp.requestedTime < minRequestedTime
      · exact ⟨_, by rw [if_pos hreq], hrefuse eINVAL (by decide)⟩
      rw [if_neg hreq, changeToShort_make hshort]
      by_cases hmay : s.MayShorten p
      · have hother : (s.task p).policy = .other := by
          cases h : (s.task p).policy <;> simp_all
        have hpos : 0 ≤ policy ∧ Policy.ofInt? policy = some .short := by
          by_cases hneg : policy < 0
          · rw [if_pos hneg, hnew] at hpolicy
            exact absurd (Option.some.inj hpolicy) hshort
          · rw [if_neg hneg, hnew] at hpolicy
            exact ⟨not_lt.mp hneg, hpolicy⟩
        rw [not_or, Int32.not_lt, Int32.not_lt] at hreq
        exact ⟨_, by rw [if_pos hmay], .madeShort target hother hpos hreq.1 hreq.2 hmay⟩
      · exact ⟨_, by rw [if_neg hmay], hrefuse ePERM (by decide)⟩

/-- **`setscheduler`** returns, in one of four ways. -/
theorem setscheduler_cases (s : Sys) (pid policy : ℤ) (param : UserParam) :
    ∃ r, s.setscheduler pid policy param = some r ∧ SetschedCase s pid policy param r := by
  have hrefuse : ∀ e : ℤ, 0 < e → SetschedCase s pid policy param (-e, s) := fun e he =>
    .refused (by omega) (.refl s)
  unfold setscheduler
  by_cases harg : param = .null ∨ pid < 0
  · exact ⟨_, by rw [if_pos harg], hrefuse eINVAL (by decide)⟩
  rw [if_neg harg]
  rw [not_or, not_lt] at harg
  cases param with
  | null => exact absurd rfl harg.1
  | fault => exact ⟨_, rfl, hrefuse eFAULT (by decide)⟩
  | valid lp =>
    dsimp only
    cases hfind : s.findProcessByPid pid with
    | none => exact ⟨_, rfl, hrefuse eSRCH (by decide)⟩
    | some p => exact setschedulerTask_cases ⟨rfl, harg.2, hfind⟩

theorem SetschedCase.of_eq_some {pid policy : ℤ} {param : UserParam} {r : ℤ × Sys}
    (h : s.setscheduler pid policy param = some r) : SetschedCase s pid policy param r := by
  obtain ⟨r', hr', hcase⟩ := s.setscheduler_cases pid policy param
  rw [h] at hr'
  rwa [Option.some.inj hr']

end Sys
end ShortSched
