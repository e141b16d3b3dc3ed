import ShortSched.StepTheorems

/-!
# Which tasks exist

`do_fork` allocates a structure and links it into the task list when it wakes the child;
`sched_exit` is where a structure is freed. No other operation creates or frees a task. What
interrupts do between the copy and the split does not reach the structure of the child.
-/

namespace ShortSched

open General Sys

variable [Param] {s s' : Sys} {op : Op} {t : TaskId}

/-- No task is created and none is freed. -/
structure SameLists (s s' : Sys) : Prop where
  tasklist : s'.tasklist = s.tasklist
  forking : s'.forking = s.forking

namespace SameLists

omit [Param] in
theorem refl (s : Sys) : SameLists s s := ⟨rfl, rfl⟩

omit [Param] in
theorem trans {s'' : Sys} (h : SameLists s s') (h' : SameLists s' s'') : SameLists s s'' :=
  ⟨h'.tasklist.trans h.tasklist, h'.forking.trans h.forking⟩

omit [Param] in
theorem of_frame (h : SameFrame s s') : SameLists s s' := ⟨h.tasklist, h.forking⟩

end SameLists

theorem sameLists_activateTask (p : TaskId) (s : Sys) : SameLists s (s.activateTask p) := by
  have hframe := sameFrame_enqueueTask (s.modify p (Task.woken s.jiffies)) p
    (pointerToMyActivePrioArray (s.task p).toTaskSched s.rq.toRqPtrs)
  rw [activateTask_eq]
  exact ⟨hframe.tasklist, hframe.forking⟩

/-- A wake-up lists no task. -/
theorem sameLists_tryToWakeUp (p : TaskId) (sync : Bool) (s : Sys) :
    SameLists s (s.tryToWakeUp p sync).2 := by
  by_cases hp : (s.task p).array = none
  · have hprepare : SameLists s (s.wakePrepare p sync) := by
      unfold wakePrepare
      split <;> split <;> exact ⟨rfl, rfl⟩
    have hfinish : ∀ s₁ : Sys, SameLists s₁ (s₁.wakeFinish p) := by
      intro s₁
      unfold wakeFinish
      split <;> exact ⟨rfl, rfl⟩
    rw [tryToWakeUp_of_sleeping hp]
    exact (hprepare.trans (sameLists_activateTask p _)).trans (hfinish _)
  · rw [tryToWakeUp_of_queued hp]
    exact ⟨rfl, rfl⟩

omit [Param] in
theorem sameLists_schedule (h : s.schedule = some s') : SameLists s s' := by
  have hpass : ∀ s₁ s₂ : Sys, SameLists s s₁ → s₁.schedulePass = some s₂ → SameLists s s₂ := by
    intro s₁ s₂ hs hpass
    have hframe := schedulePass_frame hpass
    exact hs.trans ⟨hframe.tasklist, hframe.forking⟩
  exact scheduleLoop_induct hpass h (.refl s)

/-- Nor does a tick. -/
theorem sameLists_schedulerTick (s : Sys) : SameLists s s.schedulerTick := by
  have hexpire : SameLists s s.expireState := by
    have hframe := sameFrame_dequeueTask (s.modify s.rq.curr Task.tick) s.rq.curr
      (pointerToMyActivePrioArray ((s.modify s.rq.curr Task.tick).task s.rq.curr).toTaskSched
        s.rq.toRqPtrs)
    exact ⟨hframe.tasklist, hframe.forking⟩
  have hcase := s.schedulerTick_cases
  generalize s.schedulerTick = s' at hcase ⊢
  cases hcase with
  | idle | fifo | expired | rr | run => exact ⟨rfl, rfl⟩
  | rrRefill =>
    have hframe := (sameFrame_dequeueTask (s.rrRefill s.rq.curr) s.rq.curr s.rq.rtShort).trans
      (sameFrame_enqueueTail _ s.rq.curr s.rq.rtShort)
    exact ⟨hframe.tasklist, hframe.forking⟩
  | requeue => exact hexpire.trans (.of_frame (sameFrame_enqueueTail _ _ _))
  | toExpired =>
    refine hexpire.trans (.trans ?_ (.of_frame (sameFrame_enqueueTail _ _ _)))
    unfold stampExpired
    split <;> exact ⟨rfl, rfl⟩

omit [Param] in
/-- Nor does a change of the nice value. -/
theorem sameLists_setUserNice (p : TaskId) (nice : ℤ) (s : Sys) :
    SameLists s (s.setUserNice p nice) := by
  have hqueued : ∀ array, SameLists s (s.reniceQueued p nice array) := by
    intro array
    have hdequeue := sameFrame_dequeueTask s p array
    have henqueue := sameFrame_enqueueTask ((s.dequeueTask p array).modify p (setNice nice)) p array
    exact ⟨henqueue.tasklist.trans hdequeue.tasklist, henqueue.forking.trans hdequeue.forking⟩
  have hcase := s.setUserNice_cases p nice
  generalize s.setUserNice p nice = s' at hcase ⊢
  cases hcase with
  | same | rt | overdue | sleeping => exact ⟨rfl, rfl⟩
  | queued | queuedResched => exact ⟨(hqueued _).tasklist, (hqueued _).forking⟩

/-- Nor does a system call that takes its target out of its queue and puts it back. -/
theorem sameLists_requeued (p : TaskId) (f : Task → Task) (s : Sys) :
    SameLists s (s.requeued p f) := by
  unfold requeued
  split
  · exact ⟨rfl, rfl⟩
  · next array harray =>
    have hdrop : SameLists s (s.dropRunning p) := by
      unfold dropRunning
      split <;> exact ⟨rfl, rfl⟩
    have hdequeue := hdrop.trans (.of_frame (sameFrame_dequeueTask (s.dropRunning p) p array))
    refine .trans ?_ (sameLists_activateTask p _)
    exact ⟨hdequeue.tasklist, hdequeue.forking⟩

/-- Nor does `setscheduler`. -/
theorem sameLists_setscheduler {pid policy : ℤ} {param : UserParam} {r : ℤ}
    (h : s.setscheduler pid policy param = some (r, s')) : SameLists s s' := by
  cases SetschedCase.of_eq_some h with
  | refused _ hsame => exact ⟨hsame.tasklist, hsame.forking⟩
  | adjusted => exact ⟨rfl, rfl⟩
  | madeShort => exact ⟨(sameLists_requeued _ _ s).tasklist, (sameLists_requeued _ _ s).forking⟩
  | changed _ _ _ _ _ hsame =>
    exact .trans ⟨hsame.tasklist, hsame.forking⟩ (sameLists_requeued _ _ _)

omit [Param] in
theorem sameLists_sysSchedYield (h : s.sysSchedYield = some s') : SameLists s s' := by
  unfold sysSchedYield at h
  simp only [Option.bind_eq_bind, Option.bind_eq_some_iff] at h
  obtain ⟨s₁, hyield, hsched⟩ := h
  obtain ⟨array, -, hframe⟩ := yieldRequeue_eq_some hyield
  exact .trans ⟨hframe.tasklist, hframe.forking⟩ (sameLists_schedule hsched)

/-- What a step does to the list of tasks. -/
inductive ListStep (s : Sys) : Op → Sys → Prop
  | same (op : Op) {s' : Sys} (h : SameLists s s') : ListStep s op s'
  | doFork (cloneFlags : UInt32) (env : ForkEnv) {s' : Sys} (htasklist : s'.tasklist = s.tasklist)
      (hforking : s'.forking = some ⟨env.child, cloneFlags, false⟩) :
      ListStep s (.doFork cloneFlags env) s'
  | doForkSplit {f : PendingFork} (hf : s.forking = some f) (hsplit : f.split = false) {s' : Sys}
      (htasklist : s'.tasklist = s.tasklist)
      (hforking : s'.forking = some { f with split := true }) : ListStep s .doForkSplit s'
  | doForkWake {f : PendingFork} (hf : s.forking = some f) {s' : Sys}
      (htasklist : s'.tasklist = s.tasklist ++ [f.child]) (hforking : s'.forking = none) :
      ListStep s .doForkWake s'
  | schedExit (p : TaskId) {s' : Sys} (htasklist : s'.tasklist = s.tasklist.erase p)
      (hforking : s'.forking = s.forking) : ListStep s (.schedExit p) s'

theorem forked_tasklist (f : PendingFork) (s : Sys) : (s.forked f).tasklist = s.tasklist := by
  show (s.forkSplit f).lastJiffy.tasklist = s.tasklist
  rw [lastJiffy_eq]
  split
  · exact (sameLists_schedulerTick _).tasklist
  · rfl

omit [Param] in
theorem sameLists_forkOut (cloneFlags : UInt32) (s : Sys) : SameLists s (s.forkOut cloneFlags) := by
  unfold forkOut
  split
  · exact .refl _
  split <;> exact ⟨rfl, rfl⟩

theorem doForkWake_lists (h : s.doForkWake = some s') :
    ∃ f, s.forking = some f ∧ s'.tasklist = s.tasklist ++ [f.child] ∧ s'.forking = none := by
  obtain ⟨f, hf, rfl⟩ := doForkWake_eq_some h
  have hprep := forkPrepared f s
  have hwake := (sameLists_activateTask f.child (s.forkPrepare f)).trans
    (sameLists_forkOut f.cloneFlags _)
  exact ⟨f, hf, hwake.tasklist.trans hprep.tasklist, hwake.forking.trans hprep.forking⟩

/-- **What a step does to the task list**: forks add to it, and `sched_exit` removes. -/
theorem step_lists (h : Step s op s') : ListStep s op s' := by
  obtain ⟨hen, hexec⟩ := h
  cases op with
  | tryToWakeUp p sync =>
    obtain rfl := Option.some.inj hexec
    exact .same _ (sameLists_tryToWakeUp p sync s)
  | schedule => exact .same _ (sameLists_schedule hexec)
  | schedulerTick =>
    obtain rfl := Option.some.inj hexec
    exact .same _ (sameLists_schedulerTick s)
  | setUserNice p nice =>
    obtain rfl := Option.some.inj hexec
    exact .same _ (sameLists_setUserNice p nice s)
  | setscheduler pid policy param =>
    obtain ⟨r, hr, rfl⟩ := Option.map_eq_some_iff.mp hexec
    exact .same _ (sameLists_setscheduler hr)
  | sysSchedYield => exact .same _ (sameLists_sysSchedYield hexec)
  | doFork cloneFlags env =>
    obtain rfl := Option.some.inj hexec
    rcases doFork_cases cloneFlags env s with ⟨-, hsame⟩ | ⟨-, hcopied⟩
    · rw [hsame]
      exact .same _ (.refl s)
    · rw [hcopied]
      exact .doFork cloneFlags env rfl rfl
  | doForkSplit =>
    obtain ⟨f, hf, hsplit, -, -, -, rfl⟩ := doForkSplit_step ⟨hen, hexec⟩
    exact .doForkSplit hf hsplit (forked_tasklist f s) rfl
  | doForkWake =>
    obtain ⟨f, hf, htasklist, hforking⟩ := doForkWake_lists hexec
    exact .doForkWake hf htasklist hforking
  | vforkReturn =>
    obtain rfl := Option.some.inj hexec
    refine .same _ ?_
    unfold vforkReturn
    split <;> exact ⟨rfl, rfl⟩
  | schedExit p =>
    obtain rfl := Option.some.inj hexec
    exact .schedExit p rfl rfl
  | doExit | setCurrentState | setSigpending | setJiffies =>
    obtain rfl := Option.some.inj hexec
    exact .same _ ⟨rfl, rfl⟩

/-- A task exists until it is reaped. -/
theorem isTask_step (hstep : Step s op s') (hreap : op ≠ .schedExit t) (ht : s.IsTask t) :
    s'.IsTask t := by
  cases step_lists hstep with
  | same _ hsame =>
    unfold IsTask
    rwa [hsame.tasklist, hsame.forking]
  | doFork cloneFlags env htasklist hforking =>
    -- no fork is pending when one begins
    rcases ht with hmem | ⟨f, hf, -⟩
    · exact .inl (htasklist ▸ hmem)
    · rw [hstep.1.1.1] at hf
      cases hf
  | @doForkSplit f hf _ _ htasklist hforking =>
    rcases ht with hmem | ⟨f', hf', hchild⟩
    · exact .inl (htasklist ▸ hmem)
    · rw [hf, Option.mem_some_iff] at hf'
      exact .inr ⟨_, hforking, hf' ▸ hchild⟩
  | @doForkWake f hf _ htasklist _ =>
    left
    rw [htasklist, List.mem_append, List.mem_singleton]
    rcases ht with hmem | ⟨f', hf', hchild⟩
    · exact .inl hmem
    · rw [hf, Option.mem_some_iff] at hf'
      exact .inr (hf' ▸ hchild.symm)
  | schedExit p htasklist hforking =>
    rcases ht with hmem | hpending
    · left
      have hne : t ≠ p := fun hc => hreap (hc ▸ rfl)
      rw [htasklist]
      exact (List.mem_erase_of_ne hne).mpr hmem
    · exact .inr (hforking ▸ hpending)

/-- A task is listed, or its fork has come past the split. -/
def Sys.OwnsSlice (s : Sys) (t : TaskId) : Prop :=
  t ∈ s.tasklist ∨ ∃ f ∈ s.forking, f.split = true ∧ f.child = t

omit [Param] in
theorem Sys.OwnsSlice.isTask (h : s.OwnsSlice t) : s.IsTask t :=
  h.imp id fun ⟨f, hf, _, hchild⟩ => ⟨f, hf, hchild⟩

omit [Param] in
theorem ownsSlice_of_isTask (hforking : s.forking = none) (h : s.IsTask t) : s.OwnsSlice t := by
  rcases h with hmem | ⟨f, hf, -⟩
  · exact .inl hmem
  · rw [hforking] at hf
    cases hf

/-- A task keeps its own slice until it is reaped. -/
theorem ownsSlice_step (hstep : Step s op s') (hreap : op ≠ .schedExit t) (ht : s.OwnsSlice t) :
    s'.OwnsSlice t := by
  cases step_lists hstep with
  | same _ hsame =>
    unfold OwnsSlice
    rwa [hsame.tasklist, hsame.forking]
  | doFork cloneFlags env htasklist _ =>
    rcases ht with hmem | ⟨f, hf, -⟩
    · exact .inl (htasklist ▸ hmem)
    · rw [hstep.1.1.1] at hf
      cases hf
  | @doForkSplit f hf hsplit _ htasklist _ =>
    rcases ht with hmem | ⟨f', hf', hsplit', -⟩
    · exact .inl (htasklist ▸ hmem)
    · rw [hf, Option.mem_some_iff] at hf'
      rw [← hf', hsplit] at hsplit'
      cases hsplit'
  | @doForkWake f hf _ htasklist _ =>
    left
    rw [htasklist, List.mem_append, List.mem_singleton]
    rcases ht with hmem | ⟨f', hf', -, hchild⟩
    · exact .inl hmem
    · rw [hf, Option.mem_some_iff] at hf'
      exact .inr (hf' ▸ hchild.symm)
  | schedExit p htasklist hforking =>
    rcases ht with hmem | hpending
    · left
      have hne : t ≠ p := fun hc => hreap (hc ▸ rfl)
      rw [htasklist]
      exact (List.mem_erase_of_ne hne).mpr hmem
    · exact .inr (hforking ▸ hpending)

/-- The split writes a child that has no slice of its own yet. -/
theorem ne_child_of_ownsSlice {f : PendingFork} (hstep : Step s .doForkSplit s')
    (hf : s.forking = some f) (ht : s.OwnsSlice t) : t ≠ f.child := by
  obtain ⟨f', hf', hsplit, -, hcopy, -⟩ := doForkSplit_step hstep
  obtain rfl := Option.some.inj (hf.symm.trans hf')
  rintro rfl
  rcases ht with hmem | ⟨f', hf'', hsplit', -⟩
  · exact hcopy.not_listed hmem
  · rw [hf, Option.mem_some_iff] at hf''
    rw [← hf'', hsplit] at hsplit'
    cases hsplit'

/-- The child owns its slice from then on. -/
theorem ownsSlice_child {f : PendingFork} (hstep : Step s .doForkSplit s')
    (hf : s.forking = some f) : s'.OwnsSlice f.child := by
  obtain ⟨f', hf', -, -, -, -, rfl⟩ := doForkSplit_step hstep
  obtain rfl := Option.some.inj (hf.symm.trans hf')
  exact .inr ⟨{ f with split := true }, rfl, rfl, rfl⟩

/-! ## Between the copy and the split -/

/-- What may come at any time. -/
def Op.Interrupt : Op → Prop
  | tryToWakeUp _ _ | schedulerTick | setSigpending _ _ | setJiffies _ => True
  | schedule | setUserNice _ _ | setscheduler _ _ _ | sysSchedYield | doFork _ _ | doForkSplit
  | doForkWake | vforkReturn | schedExit _ | doExit _ | setCurrentState _ => False

omit [Param] in
/-- What can be done while `current` is inside `do_fork`. -/
theorem interrupt_of_forking {f : PendingFork} (hf : s.forking = some f) (hen : op.Enabled s) :
    op.Interrupt ∨ (op = .doForkSplit ∧ f.split = false) ∨ (op = .doForkWake ∧ f.split = true) := by
  have hpending : s.forking ≠ none := by
    rw [hf]
    exact Option.some_ne_none f
  cases op with
  | tryToWakeUp | schedulerTick | setSigpending | setJiffies => exact .inl trivial
  | doForkSplit =>
    obtain ⟨-, f', hf', hsplit, -⟩ := hen
    obtain rfl := Option.some.inj (hf.symm.trans hf')
    exact .inr (.inl ⟨rfl, hsplit⟩)
  | doForkWake =>
    obtain ⟨f', hf', hsplit⟩ := hen
    obtain rfl := Option.some.inj (hf.symm.trans hf')
    exact .inr (.inr ⟨rfl, hsplit⟩)
  | schedule => exact absurd hen hpending
  | setUserNice | setscheduler => exact absurd hen.1 hpending
  | sysSchedYield | vforkReturn => exact absurd hen.1 hpending
  | doFork | schedExit | doExit | setCurrentState => exact absurd hen.1.1 hpending

theorem Op.Interrupt.sameLists (hop : op.Interrupt) (hstep : Step s op s') : SameLists s s' := by
  cases step_lists hstep with
  | same _ h => exact h
  | doFork | doForkSplit | doForkWake | schedExit => exact hop.elim

theorem Op.Interrupt.samePtrs (hop : op.Interrupt) (hstep : Step s op s') :
    SamePtrs s.rq.toRqPtrs s'.rq.toRqPtrs := by
  refine (step_ptrs hstep).2.resolve_right ?_
  rintro (rfl | rfl)
  · exact hop
  · exact hop

/-- A tick makes no task SHORT. -/
theorem Task.afterTick_policy {u : Task} (h : u.afterTick.policy = .short) : u.policy = .short := by
  rcases u.afterTick_cases with ⟨_, _, -, heq⟩ | ⟨-, -, heq⟩
  · rwa [heq] at h
  · rw [heq] at h
    have hclass : u.tick.expireClass.policy = .short := h
    have htick : u.tick.policy = u.policy := by rw [Task.tick_sched]
    rw [← htick]
    unfold expireClass at hclass
    split at hclass
    · cases hclass
    · split at hclass <;> exact hclass

/-- The pending copy is one of `current`. -/
def CopyInv (s : Sys) : Prop :=
  ∀ f ∈ s.forking, f.split = false → s.rq.curr ≠ s.rq.idle ∧ Op.CopiedTask s f.child

omit [Param] in
theorem copyInv_of_not_forking (h : s.forking = none) : CopyInv s := by
  intro f hf
  rw [h] at hf
  cases hf

/-- An interrupt can only end the class of `current`. -/
theorem Op.Interrupt.class_current (hop : op.Interrupt) (hstep : Step s op s') :
    (s'.current.policy = .short → s.current.policy = .short) ∧
      (s'.current.ShortTask → s.current.ShortTask) := by
  have hsched := step_sched hstep s.rq.curr
  rw [current, (hop.samePtrs hstep).curr]
  generalize (s'.task s.rq.curr).toTaskSched = p' at hsched ⊢
  cases hsched with
  | same => exact ⟨id, id⟩
  | woken =>
    rw [Task.woken_sched]
    exact ⟨id, id⟩
  | tick => exact ⟨Task.afterTick_policy, fun h => (Task.afterTick_short h).1⟩
  | renice | adjust | make | setPolicy | yield | forkCopy | forkSlice | forkExpired | forkTick
  | forkChild | forkWoken | reap => exact hop.elim

/-- It does not reach the copy. -/
theorem Op.CopiedTask.sched_eq {p : TaskId} (h : CopiedTask s p) (hop : op.Interrupt)
    (hstep : Step s op s') : (s'.task p).toTaskSched = (s.task p).toTaskSched := by
  have hsched := step_sched hstep p
  generalize (s'.task p).toTaskSched = p' at hsched ⊢
  cases hsched with
  | same => rfl
  | woken => exact absurd hstep.1.1 h.not_listed
  | tick hc => exact absurd hc h.ne_curr
  | renice | adjust | make | setPolicy | yield | forkCopy | forkSlice | forkExpired | forkTick
  | forkChild | forkWoken | reap => exact hop.elim

/-- So it stays a copy of `current`. -/
theorem Op.CopiedTask.interrupt {p : TaskId} (h : CopiedTask s p) (hop : op.Interrupt)
    (hstep : Step s op s') : CopiedTask s' p := by
  have hptrs := hop.samePtrs hstep
  have hclass := hop.class_current hstep
  have hsame := h.sched_eq hop hstep
  refine ⟨?_, ?_, ?_, fun hshort => ?_, fun hshort => ?_⟩
  · rw [(hop.sameLists hstep).tasklist]
    exact h.not_listed
  · rw [hptrs.idle]
    exact h.ne_idle
  · rw [hptrs.curr]
    exact h.ne_curr
  · rw [hsame]
    exact h.policy (hclass.1 hshort)
  · rw [hsame]
    exact h.short (hclass.2 hshort)

omit [Param] in
/-- What `*p = *current` makes is a copy of `current`. -/
theorem copiedTask_copied {cloneFlags : UInt32} {env : ForkEnv} (h : Op.FreshTask s env.child) :
    Op.CopiedTask (s.copied cloneFlags env) env.child := by
  have hcurr : (s.copied cloneFlags env).current = s.current := copied_current h.ne_curr
  refine ⟨h.not_listed, h.ne_idle, h.ne_curr, fun hshort => ?_, fun hshort => ?_⟩
  · rw [hcurr] at hshort
    rwa [copied_child]
  · rw [hcurr] at hshort
    rwa [copied_child]

/-- The pending copy stays one of `current` in every step. -/
theorem CopyInv.step (h : CopyInv s) (hstep : Step s op s') : CopyInv s' := by
  intro f hf hsplit
  cases step_lists hstep with
  | doFork cloneFlags env _ hforking =>
    obtain ⟨⟨⟨hnone, hidle⟩, hfresh⟩, hexec⟩ := hstep
    obtain rfl := Option.some.inj hexec
    rw [hforking, Option.mem_some_iff] at hf
    subst hf
    rcases doFork_cases cloneFlags env s with ⟨-, hsame⟩ | ⟨-, hcopied⟩
    · rw [hsame, hnone] at hforking
      cases hforking
    · rw [hcopied]
      exact ⟨hidle, copiedTask_copied hfresh⟩
  | doForkSplit _ _ _ hforking =>
    rw [hforking, Option.mem_some_iff] at hf
    rw [← hf] at hsplit
    cases hsplit
  | doForkWake _ _ hforking =>
    rw [hforking] at hf
    cases hf
  | schedExit p _ hforking =>
    rw [hforking, hstep.1.1.1] at hf
    cases hf
  | same _ hsame =>
    rw [hsame.forking] at hf
    obtain ⟨hidle, hcopy⟩ := h f hf hsplit
    rcases interrupt_of_forking hf hstep.1 with hop | ⟨rfl, -⟩ | ⟨-, hc⟩
    · refine ⟨?_, hcopy.interrupt hop hstep⟩
      rw [(hop.samePtrs hstep).curr, (hop.samePtrs hstep).idle]
      exact hidle
    · obtain ⟨f', hf', hsplit', -, -, -, rfl⟩ := doForkSplit_step hstep
      have hdone : some { f' with split := true } = s.forking := hsame.forking
      rw [hf', Option.some.injEq] at hdone
      rw [← hdone] at hsplit'
      cases hsplit'
    · rw [hsplit] at hc
      cases hc

/-- **The copy** is one of `current` until the split, in every run that starts outside of
`do_fork`: the split can be taken. -/
theorem copiedTask_of_run {f : PendingFork} {ops : List Op} (hforking : s.forking = none)
    (hrun : Run Step s ops s') (hf : s'.forking = some f) (hsplit : f.split = false) :
    Op.CopiedTask s' f.child ∧ Op.Enabled s' .doForkSplit := by
  obtain ⟨hidle, hcopy⟩ := hrun.invariant (P := CopyInv) (fun _ _ _ h hstep => h.step hstep)
    (copyInv_of_not_forking hforking) f hf hsplit
  exact ⟨hcopy, hidle, f, hf, hsplit, hcopy⟩

end ShortSched
