import ShortSched.TickTheorems

/-!
# What `do_fork` changes

`do_fork` copies `current` (`copied`). Under `__cli` it splits the time slice that `current` has by
then, and ticks a `current` that is left without one (`forked`). From there on it links the child,
wakes it (`forkPrepare`, then `activate_task`) and sets `need_resched` (`forkOut`).
-/

namespace ShortSched

/-! ## The split -/

namespace Task

/-- The time slice of the child `p`: one that was copied from an overdue parent stays as it is, any
other is split. -/
def childSlice (t p : Task) : UInt32 :=
  if t.policy = .short then
    if t.ShortTask then t.timeSlice / 2 + t.timeSlice % 2 else p.timeSlice
  else (t.timeSlice + 1) >>> 1

/-- The time slice that is left to the parent. -/
def parentSlice (t : Task) : UInt32 :=
  if t.policy = .short ∧ ¬t.ShortTask then t.timeSlice else t.timeSlice >>> 1

theorem toNat_shiftRight_one (slice : UInt32) : (slice >>> 1).toNat = slice.toNat / 2 := by
  rw [UInt32.toNat_shiftRight]
  exact Nat.shiftRight_eq_div_pow slice.toNat 1

/-- A parent that is not overdue keeps the lesser half of its slice. -/
theorem toNat_parentSlice {t : Task} (h : t.policy = .short → t.ShortTask) :
    t.parentSlice.toNat = t.timeSlice.toNat / 2 := by
  rw [parentSlice, if_neg fun hc => hc.2 (h hc.1), toNat_shiftRight_one]

/-- A task whose lesser half is empty has one jiffy. -/
theorem timeSlice_of_parentSlice {t : Task} (hsome : t.timeSlice ≠ 0) (h : t.parentSlice = 0) :
    t.timeSlice = 1 := by
  have hsplit : ¬(t.policy = .short ∧ ¬t.ShortTask) := by
    intro hover
    rw [parentSlice, if_pos hover] at h
    exact hsome h
  rw [parentSlice, if_neg hsplit] at h
  have hhalf : t.timeSlice.toNat / 2 = 0 := by
    rw [← toNat_shiftRight_one, h]
    rfl
  have hpos := slice_pos.mpr hsome
  rw [slice_eq_one]
  omega

/-- The child of a SHORT parent gets the greater half. -/
theorem toNat_childSlice_short {t p : Task} (h : t.ShortTask) :
    (t.childSlice p).toNat = t.timeSlice.toNat - t.timeSlice.toNat / 2 := by
  have htwo : (2 : UInt32).toNat = 2 := rfl
  have hlt := t.timeSlice.toNat_lt
  rw [childSlice, if_pos h.1, if_pos h, UInt32.toNat_add, UInt32.toNat_div, UInt32.toNat_mod, htwo]
  omega

/-- So does the child of a parent of another policy, unless the slice wraps around. -/
theorem toNat_childSlice_other {t p : Task} (h : t.policy ≠ .short) :
    (t.childSlice p).toNat = (t.timeSlice.toNat + 1) % 2 ^ 32 / 2 := by
  have hone : (1 : UInt32).toNat = 1 := rfl
  rw [childSlice, if_neg h, toNat_shiftRight_one, UInt32.toNat_add, hone]

/-- A split leaves nothing out. -/
theorem split_slices {t p : Task} (h : t.policy = .short → t.ShortTask)
    (hwrap : t.policy = .short ∨ t.timeSlice.toNat + 1 < 2 ^ 32) :
    (t.childSlice p).toNat + t.parentSlice.toNat = t.timeSlice.toNat := by
  rw [toNat_parentSlice h]
  by_cases hshort : t.policy = .short
  · rw [toNat_childSlice_short (h hshort)]
    omega
  · have hlt := hwrap.resolve_left hshort
    rw [toNat_childSlice_other hshort, Nat.mod_eq_of_lt hlt]
    omega

/-- The child `p` as `do_fork` leaves it at `__restore_flags`. -/
def forkChild (jiffies : UInt32) (parent p : Task) : Task :=
  { parent.childSplit p with sleepTimestamp := jiffies }

/-- The split does not change the class of a child that is the copy of its parent. -/
theorem forkChild_sched (jiffies : UInt32) {parent p : Task}
    (hpolicy : parent.policy = .short → p.policy = .short) :
    (parent.forkChild jiffies p).toTaskSched =
      { p.toTaskSched with timeSlice := parent.childSlice p, firstTimeSlice := 1 } := by
  unfold forkChild childSplit childSlice
  by_cases hshort : parent.policy = .short
  · by_cases hnot : parent.ShortTask
    · simp only [if_pos hshort, if_pos hnot]
      rw [← hpolicy hshort]
    · simp only [if_pos hshort, if_neg hnot]
      rw [← hpolicy hshort]
  · simp only [if_neg hshort]

/-- The split changes neither where the child is nor who its parents are. -/
theorem forkChild_frame (jiffies : UInt32) (parent p : Task) :
    (parent.forkChild jiffies p).array = p.array ∧
      (parent.forkChild jiffies p).justGotForked = p.justGotForked ∧
      (parent.forkChild jiffies p).pOpptr = p.pOpptr ∧
      (parent.forkChild jiffies p).state = p.state := by
  unfold forkChild childSplit
  by_cases hpolicy : parent.policy = .short
  · by_cases hshort : parent.ShortTask
    · simp only [if_pos hpolicy, if_pos hshort, and_self]
    · simp only [if_pos hpolicy, if_neg hshort, and_self]
  · simp only [if_neg hpolicy, and_self]

/-- The parent gives part of its slice away; a SHORT parent raises its flag. -/
theorem parentSplit_eq (t : Task) : t.parentSplit =
    { t with
      timeSlice := t.parentSlice
      justGotForked := if t.ShortTask then 1 else t.justGotForked } := by
  unfold parentSplit parentSlice
  by_cases hpolicy : t.policy = .short
  · by_cases hshort : t.ShortTask
    · have hcopy : ¬(t.policy = .short ∧ ¬t.ShortTask) := fun hc => hc.2 hshort
      simp only [if_pos hpolicy, if_pos hshort, if_neg hcopy]
    · have hcopy : t.policy = .short ∧ ¬t.ShortTask := ⟨hpolicy, hshort⟩
      simp only [if_pos hpolicy, if_neg hshort, if_pos hcopy]
  · have hshort : ¬t.ShortTask := fun hc => hpolicy hc.1
    have hcopy : ¬(t.policy = .short ∧ ¬t.ShortTask) := fun hc => hpolicy hc.1
    simp only [if_neg hpolicy, if_neg hshort, if_neg hcopy]

/-- A parent whose single jiffy went to the child, before its synthetic tick. -/
def lastJiffy (t : Task) : Task := { t with justGotForked := 0, timeSlice := 1 }

end Task

namespace Sys

variable {s s' : Sys} {t : TaskId} {f : PendingFork}

/-! ## Up to `copy_thread` -/

/-- A successful `do_fork` once it has copied the task. -/
def copied (cloneFlags : UInt32) (env : ForkEnv) (s : Sys) : Sys :=
  { s.modify env.child fun _ => s.current.copyForChild cloneFlags env.pid with
    forking := some ⟨env.child, cloneFlags, false⟩ }

/-- The flags, the pid or a `copy_*` function make `do_fork` fail. -/
abbrev ForkRefused (cloneFlags : UInt32) (env : ForkEnv) (s : Sys) : Prop :=
  cloneFlags &&& (cloneNewns ||| cloneFs) = cloneNewns ||| cloneFs ∨
    (cloneFlags &&& clonePid ≠ 0 ∧ s.current.pid ≠ 0) ∨ env.retval < 0

theorem not_forkRefused_zero {env : ForkEnv} (h : 0 ≤ env.retval) : ¬s.ForkRefused 0 env := by
  rintro (hns | ⟨hpid, -⟩ | hret)
  · exact absurd hns (by decide)
  · exact absurd hpid (by decide)
  · exact absurd h (not_le.mpr hret)

section copied

variable {cloneFlags : UInt32} {env : ForkEnv}

/-- A `do_fork` that fails leaves the state alone. -/
theorem doFork_of_refused (h : s.ForkRefused cloneFlags env) :
    (s.doFork cloneFlags env).1 < 0 ∧ (s.doFork cloneFlags env).2 = s := by
  unfold doFork
  by_cases hns : cloneFlags &&& (cloneNewns ||| cloneFs) = cloneNewns ||| cloneFs
  · rw [if_pos hns]
    exact ⟨show -eINVAL < 0 by decide, rfl⟩
  by_cases hpid : cloneFlags &&& clonePid ≠ 0 ∧ s.current.pid ≠ 0
  · rw [if_neg hns, if_pos hpid]
    exact ⟨show -ePERM < 0 by decide, rfl⟩
  have hret := (h.resolve_left hns).resolve_left hpid
  rw [if_neg hns, if_neg hpid, if_pos hret]
  exact ⟨hret, rfl⟩

theorem doFork_of_not_refused (h : ¬s.ForkRefused cloneFlags env) :
    s.doFork cloneFlags env = (env.pid, s.copied cloneFlags env) := by
  obtain ⟨hns, hrest⟩ := not_or.mp h
  obtain ⟨hpid, hret⟩ := not_or.mp hrest
  rw [doFork, if_neg hns, if_neg hpid, if_neg hret]
  rfl

/-- **`do_fork`** fails and leaves the state alone, or copies the task. -/
theorem doFork_cases (cloneFlags : UInt32) (env : ForkEnv) (s : Sys) :
    (s.ForkRefused cloneFlags env ∧ (s.doFork cloneFlags env).2 = s) ∨
      ¬s.ForkRefused cloneFlags env ∧ (s.doFork cloneFlags env).2 = s.copied cloneFlags env := by
  by_cases h : s.ForkRefused cloneFlags env
  · exact .inl ⟨h, (doFork_of_refused h).2⟩
  · exact .inr ⟨h, by rw [doFork_of_not_refused h]⟩

theorem copied_child : (s.copied cloneFlags env).task env.child =
    s.current.copyForChild cloneFlags env.pid := by
  rw [copied, modify_task, Function.update_self]

theorem copied_of_ne (h : t ≠ env.child) : (s.copied cloneFlags env).task t = s.task t := by
  rw [copied, modify_task, Function.update_of_ne h]

theorem copied_current (hne : env.child ≠ s.rq.curr) :
    (s.copied cloneFlags env).current = s.current := copied_of_ne hne.symm

end copied

/-! ## From `__cli` to `__restore_flags` -/

/-- The time slice is split. -/
def forkSplit (f : PendingFork) (s : Sys) : Sys :=
  (s.modify f.child (s.current.forkChild s.jiffies)).modify s.rq.curr Task.parentSplit

theorem forkSplit_child (hne : f.child ≠ s.rq.curr) :
    (s.forkSplit f).task f.child = s.current.forkChild s.jiffies (s.task f.child) := by
  simp [forkSplit, hne]

theorem forkSplit_current (hne : f.child ≠ s.rq.curr) :
    (s.forkSplit f).task s.rq.curr = s.current.parentSplit := by
  simp [forkSplit, hne.symm]

theorem forkSplit_of_ne (hchild : t ≠ f.child) (hcurr : t ≠ s.rq.curr) :
    (s.forkSplit f).task t = s.task t := by
  simp [forkSplit, hchild, hcurr]

variable [Param]

theorem lastJiffy_eq (s : Sys) : s.lastJiffy =
    if s.current.timeSlice = 0 then (s.modify s.rq.curr Task.lastJiffy).schedulerTick else s := rfl

theorem lastJiffy_of_ne (h : t ≠ s.rq.curr) : s.lastJiffy.task t = s.task t := by
  rw [lastJiffy_eq]
  split
  · have htick := schedulerTick_task_of_ne (s := s.modify s.rq.curr Task.lastJiffy) h
    rw [htick, modify_task, Function.update_of_ne h]
  · rfl

/-- `do_fork` at `__restore_flags`. -/
def forked (f : PendingFork) (s : Sys) : Sys :=
  { (s.forkSplit f).lastJiffy with forking := some { f with split := true } }

/-- What remains is the `BUG()` of a parent without a time slice. -/
theorem doForkSplit_of_pending (hf : s.forking = some f) :
    s.doForkSplit = if s.current.timeSlice = 0 then none else some (s.forked f) := by
  unfold doForkSplit
  rw [hf]
  rfl

/-- A split that is no `BUG()` is of a parent with a time slice. -/
theorem doForkSplit_eq_some (h : s.doForkSplit = some s') :
    ∃ f, s.forking = some f ∧ s.current.timeSlice ≠ 0 ∧ s' = s.forked f := by
  cases hf : s.forking with
  | none =>
    rw [doForkSplit, hf] at h
    cases h
  | some f =>
    rw [doForkSplit_of_pending hf] at h
    split at h
    · cases h
    · next hslice => exact ⟨f, rfl, hslice, (Option.some.inj h).symm⟩

theorem forked_child (hne : f.child ≠ s.rq.curr) :
    (s.forked f).task f.child = s.current.forkChild s.jiffies (s.task f.child) :=
  (lastJiffy_of_ne (s := s.forkSplit f) hne).trans (forkSplit_child hne)

theorem forked_of_ne (hchild : t ≠ f.child) (hcurr : t ≠ s.rq.curr) :
    (s.forked f).task t = s.task t :=
  (lastJiffy_of_ne (s := s.forkSplit f) hcurr).trans (forkSplit_of_ne hchild hcurr)

/-- The parent with what is left of its slice, and after its synthetic tick if nothing is. -/
theorem forked_current (hne : f.child ≠ s.rq.curr) (hslice : s.current.parentSlice ≠ 0) :
    (s.forked f).task s.rq.curr = s.current.parentSplit := by
  show (s.forkSplit f).lastJiffy.task s.rq.curr = _
  have hcurr : (s.forkSplit f).current = s.current.parentSplit := forkSplit_current hne
  rw [lastJiffy_eq, hcurr, if_neg]
  · exact hcurr
  · rwa [Task.parentSplit_eq]

/-- The state before the synthetic tick of a parent that has given its single jiffy away. -/
def beforeLastTick (f : PendingFork) (s : Sys) : Sys :=
  (s.forkSplit f).modify s.rq.curr Task.lastJiffy

theorem forked_eq_tick (hne : f.child ≠ s.rq.curr) (hslice : s.current.parentSlice = 0) :
    s.forked f = { (s.beforeLastTick f).schedulerTick with
      forking := some { f with split := true } } := by
  have hcurr : (s.forkSplit f).current = s.current.parentSplit := forkSplit_current hne
  rw [forked, lastJiffy_eq, hcurr, if_pos]
  · rfl
  · rwa [Task.parentSplit_eq]

omit [Param] in
/-- The parent as the synthetic tick finds it. -/
theorem beforeLastTick_current (hne : f.child ≠ s.rq.curr) :
    (s.beforeLastTick f).current =
      { s.current with
        timeSlice := 1
        justGotForked := 0 } := by
  have hcurr : (s.forkSplit f).task s.rq.curr = s.current.parentSplit := forkSplit_current hne
  show (s.beforeLastTick f).task s.rq.curr = _
  rw [beforeLastTick, modify_task, Function.update_self, hcurr, Task.parentSplit_eq, Task.lastJiffy]

/-- The synthetic tick finds the flag lowered. -/
theorem forked_current_flag (hne : f.child ≠ s.rq.curr) (hslice : s.current.parentSlice = 0) :
    ((s.forked f).task s.rq.curr).justGotForked = 0 := by
  rw [forked_eq_tick hne hslice]
  refine (schedulerTick_frame _ _).1.trans ?_
  show (s.beforeLastTick f).current.justGotForked = 0
  rw [beforeLastTick_current hne]

/-- What is left to the parent: part of its slice, or its single jiffy, which the synthetic tick
takes away unless the parent is in the expired array. -/
theorem forked_current_sched (hidle : s.rq.curr ≠ s.rq.idle) (hne : f.child ≠ s.rq.curr) :
    ((s.forked f).task s.rq.curr).toTaskSched =
      if s.current.parentSlice ≠ 0 then
        { s.current.toTaskSched with timeSlice := s.current.parentSlice }
      else if s.current.array = some s.rq.expired then { s.current.toTaskSched with timeSlice := 1 }
      else (Task.afterTick { s.current with
        timeSlice := 1
        justGotForked := 0 }).toTaskSched := by
  by_cases hslice : s.current.parentSlice = 0
  swap
  · rw [if_pos hslice, forked_current hne hslice, Task.parentSplit_eq]
  have hlast : (s.beforeLastTick f).current =
      { s.current with
        timeSlice := 1
        justGotForked := 0 } := beforeLastTick_current hne
  have htick := schedulerTick_sched (s.beforeLastTick f) s.rq.curr
  rw [if_neg (not_not.mpr hslice), forked_eq_tick hne hslice]
  show ((s.beforeLastTick f).schedulerTick.task s.rq.curr).toTaskSched = _
  rw [htick]
  by_cases harray : s.current.array = some s.rq.expired
  · rw [if_pos harray, if_neg]
    · show (s.beforeLastTick f).current.toTaskSched = _
      rw [hlast]
    · rintro ⟨-, -, hc⟩
      rw [hlast] at hc
      exact hc harray
  · rw [if_neg harray, if_pos, hlast]
    refine ⟨rfl, hidle, ?_⟩
    rw [hlast]
    exact harray

theorem samePtrs_forked : SamePtrs s.rq.toRqPtrs (s.forked f).rq.toRqPtrs := by
  show SamePtrs s.rq.toRqPtrs (s.forkSplit f).lastJiffy.rq.toRqPtrs
  rw [lastJiffy_eq]
  split
  · exact samePtrs_schedulerTick ((s.forkSplit f).modify s.rq.curr Task.lastJiffy)
  · exact .refl _

/-! ## From `__restore_flags` on -/

/-- `wake_up_forked_process` up to its call of `activate_task`. -/
def wakeForkedPrepare (p : TaskId) (s : Sys) : Sys :=
  let s := s.modify p fun t => { t with state := .running }
  let s := if ¬(s.task p).RtTask then
      let s := s.modify s.rq.curr fun t => { t with sleepAvg := t.sleepAvg * parentPenalty / 100 }
      s.modify p fun t =>
        let t := { t with sleepAvg := t.sleepAvg * childPenalty / 100 }
        { t with prio := t.effectivePrio }
    else s
  s.modify p fun t => { t with cpu := smpProcessorId }

/-- `forkWake` up to its call of `activate_task`. -/
def forkPrepare (f : PendingFork) (s : Sys) : Sys :=
  let s := s.linkChild f
  let s := if (s.task f.child).ptrace &&& ptPtraced ≠ 0 then s.sendSigstop f.child else s
  s.wakeForkedPrepare f.child

/-- **The end of `do_fork`**: the child is linked, activated, and the parent gives way. -/
theorem doForkWake_eq_some (h : s.doForkWake = some s') :
    ∃ f, s.forking = some f ∧
      s' = ((s.forkPrepare f).activateTask f.child).forkOut f.cloneFlags := by
  unfold doForkWake at h
  cases hf : s.forking with
  | none =>
    rw [hf] at h
    cases h
  | some f =>
    rw [hf] at h
    exact ⟨f, rfl, (Option.some.inj h).symm⟩

/-- What `forkPrepare` does: the child gets its parents, a penalty and a priority, and joins
the list of tasks. -/
structure ForkPrepared (f : PendingFork) (s s' : Sys) : Prop where
  rq : s'.rq = s.rq
  jiffies : s'.jiffies = s.jiffies
  tasklist : s'.tasklist = s.tasklist ++ [f.child]
  forking : s'.forking = none
  sched : ∀ t, t ≠ f.child → (s'.task t).toTaskSched = (s.task t).toTaskSched
  child_sched : ∃ sleepAvg, (s'.task f.child).toTaskSched =
    if (s.task f.child).RtTask then (s.task f.child).toTaskSched
    else { (s.task f.child).toTaskSched with
      prio := Task.effectivePrio { s.task f.child with sleepAvg := sleepAvg } }
  array : ∀ t, (s'.task t).array = (s.task t).array
  justGotForked : ∀ t, (s'.task t).justGotForked = (s.task t).justGotForked
  pOpptr : ∀ t, t ≠ f.child → (s'.task t).pOpptr = (s.task t).pOpptr
  child_pOpptr : (s'.task f.child).pOpptr =
    if f.cloneFlags &&& cloneParent = 0 then s.rq.curr else s.current.pOpptr
  state : ∀ t, t ≠ f.child → (s'.task t).state = (s.task t).state

omit [Param] in
/-- Only the parent pointers of the child are set. -/
theorem linkChild_task (f : PendingFork) (s : Sys) : ∃ pPptr, (s.linkChild f).task =
    Function.update s.task f.child { s.task f.child with
      pOpptr := if f.cloneFlags &&& cloneParent = 0 then s.rq.curr else s.current.pOpptr
      pPptr := pPptr } := by
  unfold linkChild
  by_cases hparent : f.cloneFlags &&& cloneParent = 0
  · simp only [if_pos hparent, modify_task, Function.update_self, Function.update_idem]
    exact ⟨_, rfl⟩
  · simp only [if_neg hparent, modify_task]
    exact ⟨_, rfl⟩

omit [Param] in
theorem linkChild_rq (f : PendingFork) (s : Sys) : (s.linkChild f).rq = s.rq ∧
    (s.linkChild f).jiffies = s.jiffies ∧ (s.linkChild f).tasklist = s.tasklist ++ [f.child] ∧
    (s.linkChild f).forking = none := by
  unfold linkChild
  dsimp only
  split <;> exact ⟨rfl, rfl, rfl, rfl⟩

theorem wakeForkedPrepare_rq (p : TaskId) (s : Sys) : (s.wakeForkedPrepare p).rq = s.rq ∧
    (s.wakeForkedPrepare p).jiffies = s.jiffies ∧
    (s.wakeForkedPrepare p).tasklist = s.tasklist ∧
    (s.wakeForkedPrepare p).forking = s.forking := by
  unfold wakeForkedPrepare
  dsimp only
  split <;> exact ⟨rfl, rfl, rfl, rfl⟩

/-- Whatever does not look at the state, the averages, the priority and the CPU of a task. -/
theorem wakeForkedPrepare_proj {α : Type} (g : Task → α)
    (hg : ∀ t state sleepAvg prio cpu,
      g { t with state := state, sleepAvg := sleepAvg, prio := prio, cpu := cpu } = g t)
    (p : TaskId) (s : Sys) (t : TaskId) : g ((s.wakeForkedPrepare p).task t) = g (s.task t) := by
  have hstate : ∀ (t : Task) x, g { t with state := x } = g t :=
    fun t x => hg t x t.sleepAvg t.prio t.cpu
  have havg : ∀ (t : Task) x, g { t with sleepAvg := x } = g t :=
    fun t x => hg t t.state x t.prio t.cpu
  have hcpu : ∀ (t : Task) x, g { t with cpu := x } = g t :=
    fun t x => hg t t.state t.sleepAvg t.prio x
  have hprio : ∀ t : Task, g (
      let t := { t with sleepAvg := t.sleepAvg * childPenalty / 100 }
      { t with prio := t.effectivePrio }) = g t :=
    fun t => hg t t.state _ _ t.cpu
  unfold wakeForkedPrepare
  dsimp only
  rw [modify_proj g (hcpu _ _)]
  split
  · rw [modify_proj g (hprio _), modify_proj g (havg _ _), modify_proj g (hstate _ _)]
  · rw [modify_proj g (hstate _ _)]

/-- `wake_up_forked_process` computes the sleep averages of parent and child only. -/
theorem wakeForkedPrepare_sched_of_ne {p : TaskId} (h : t ≠ p) :
    ((s.wakeForkedPrepare p).task t).toTaskSched = (s.task t).toTaskSched := by
  unfold wakeForkedPrepare
  dsimp only
  rw [modify_task, Function.update_of_ne h]
  split
  · rw [modify_task, Function.update_of_ne h, modify_proj Task.toTaskSched rfl, modify_task,
      Function.update_of_ne h]
  · rw [modify_task, Function.update_of_ne h]

/-- The child's priority follows from its sleep average, unless it is a real-time task. -/
theorem wakeForkedPrepare_sched_self (p : TaskId) (s : Sys) : ∃ sleepAvg,
    ((s.wakeForkedPrepare p).task p).toTaskSched =
      if (s.task p).RtTask then (s.task p).toTaskSched
      else { (s.task p).toTaskSched with
        prio := Task.effectivePrio { s.task p with sleepAvg := sleepAvg } } := by
  -- the child after the penalty of its parent, which may be the child itself for all this
  -- function knows
  set s₁ := (s.modify p fun t => { t with state := .running }).modify s.rq.curr fun t =>
    { t with sleepAvg := t.sleepAvg * parentPenalty / 100 } with hs₁
  have hsched : (s₁.task p).toTaskSched = (s.task p).toTaskSched := by
    rw [hs₁, modify_proj Task.toTaskSched rfl]
    exact modify_proj Task.toTaskSched rfl p
  have hrt : ((s.modify p fun t => { t with state := .running }).task p).RtTask ↔
      (s.task p).RtTask := by
    simp
  refine ⟨(s₁.task p).sleepAvg * childPenalty / 100, ?_⟩
  unfold wakeForkedPrepare
  dsimp only
  rw [modify_proj Task.toTaskSched rfl]
  by_cases h : (s.task p).RtTask
  · rw [if_neg (not_not.mpr (hrt.mpr h)), if_pos h]
    exact modify_proj Task.toTaskSched rfl p
  · rw [if_pos (mt hrt.mp h), if_neg h]
    show ((s₁.modify p _).task p).toTaskSched = _
    rw [modify_task, Function.update_self, ← hsched]
    refine congrArg (fun prio => { (s₁.task p).toTaskSched with prio := prio }) ?_
    exact Task.effectivePrio_congr rfl rfl

/-- **`forkPrepare`** writes to the child alone, but for the penalty on the average of its parent. -/
theorem forkPrepared (f : PendingFork) (s : Sys) : ForkPrepared f s (s.forkPrepare f) := by
  obtain ⟨pPptr, hlink⟩ := linkChild_task f s
  obtain ⟨hrq, hjiffies, htasklist, hforking⟩ := linkChild_rq f s
  -- the link and a pending `SIGSTOP` write what is recorded about the child
  set s₁ := if ((s.linkChild f).task f.child).ptrace &&& ptPtraced ≠ 0 then
    (s.linkChild f).sendSigstop f.child else s.linkChild f with hs₁
  have hprepare : s.forkPrepare f = s₁.wakeForkedPrepare f.child := rfl
  have hne : ∀ t, t ≠ f.child → s₁.task t = s.task t := by
    intro t ht
    have htask : (s.linkChild f).task t = s.task t := by
      rw [hlink, Function.update_of_ne ht]
    rw [hs₁]
    split
    · rw [sendSigstop, modify_task, Function.update_of_ne ht, htask]
    · exact htask
  have hchild : ∃ sigpending, s₁.task f.child = { s.task f.child with
      pOpptr := if f.cloneFlags &&& cloneParent = 0 then s.rq.curr else s.current.pOpptr
      pPptr := pPptr
      sigpending := sigpending } := by
    rw [hs₁]
    split
    · rw [sendSigstop, modify_task, Function.update_self, hlink, Function.update_self]
      exact ⟨true, rfl⟩
    · rw [hlink, Function.update_self]
      exact ⟨(s.task f.child).sigpending, rfl⟩
  obtain ⟨sigpending, hchild⟩ := hchild
  have hsame : s₁.rq = s.rq ∧ s₁.jiffies = s.jiffies ∧ s₁.tasklist = s.tasklist ++ [f.child] ∧
      s₁.forking = none := by
    rw [hs₁]
    split <;> exact ⟨hrq, hjiffies, htasklist, hforking⟩
  obtain ⟨hrq', hjiffies', htasklist', hforking'⟩ := wakeForkedPrepare_rq f.child s₁
  rw [hprepare]
  refine ⟨hrq'.trans hsame.1, hjiffies'.trans hsame.2.1, htasklist'.trans hsame.2.2.1,
    hforking'.trans hsame.2.2.2, fun t ht => ?_, ?_, fun t => ?_, fun t => ?_, fun t ht => ?_, ?_,
    fun t ht => ?_⟩
  · rw [wakeForkedPrepare_sched_of_ne ht, hne t ht]
  · obtain ⟨sleepAvg, hsched⟩ := wakeForkedPrepare_sched_self f.child s₁
    refine ⟨sleepAvg, hsched.trans ?_⟩
    rw [hchild]
    rfl
  · rw [wakeForkedPrepare_proj (fun t => t.array) fun _ _ _ _ _ => rfl]
    by_cases ht : t = f.child
    · rw [ht, hchild]
    · rw [hne t ht]
  · rw [wakeForkedPrepare_proj (fun t => t.justGotForked) fun _ _ _ _ _ => rfl]
    by_cases ht : t = f.child
    · rw [ht, hchild]
    · rw [hne t ht]
  · rw [wakeForkedPrepare_proj (fun t => t.pOpptr) (fun _ _ _ _ _ => rfl), hne t ht]
  · rw [wakeForkedPrepare_proj (fun t => t.pOpptr) (fun _ _ _ _ _ => rfl), hchild]
  · have hstate : ∀ t, t ≠ f.child →
        ((s₁.wakeForkedPrepare f.child).task t).state = (s₁.task t).state := by
      intro t ht
      unfold wakeForkedPrepare
      dsimp only
      rw [modify_task, Function.update_of_ne ht]
      split
      · rw [modify_task, Function.update_of_ne ht, modify_proj (fun t => t.state) rfl,
          modify_task, Function.update_of_ne ht]
      · rw [modify_task, Function.update_of_ne ht]
    rw [hstate t ht, hne t ht]

end Sys
end ShortSched
