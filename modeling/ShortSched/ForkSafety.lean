import ShortSched.RunqueueRuns
import ShortSched.TaskList

/-!
# Forks and the fork branch of `enqueue_task`

The split of `do_fork` raises `justGotForked` of a SHORT parent, and the fork branch of
`enqueue_task` lowers it again when the child is queued. The branch requeues the parent in the
array that the woken task enters. Between the two interrupts are on: the flag may be found by
another wake-up, and a tick may take the parent out of its array. The interrupts before the split
do no harm.
-/

namespace ShortSched

open General Sys

/-! ## The window of a fork -/

/-- `current` is inside `do_fork` with the child `f.child`: no flag but its own may be raised, not
before the split, and only if it is a SHORT task and the child is one too. -/
structure ForkWindow (s : Sys) (f : PendingFork) : Prop where
  child_array : (s.task f.child).array = none
  child_ne_idle : f.child ≠ s.rq.idle
  child_ne_curr : f.child ≠ s.rq.curr
  child_not_listed : f.child ∉ s.tasklist
  flags : ∀ t, t ≠ s.rq.curr → (s.task t).justGotForked = 0
  unsplit : f.split = false → s.current.justGotForked = 0
  flagged : s.current.justGotForked ≠ 0 →
    s.rq.curr ≠ s.rq.idle ∧ s.current.ShortTask ∧ (s.task f.child).ShortTask

/-- The representation invariant, inside and outside of a fork. -/
structure ForkInv (s : Sys) : Prop extends s.RqInv where
  noFlags : s.forking = none → s.NoFlags
  window : ∀ f, s.forking = some f → ForkWindow s f

/-- The steps inside a fork after which the flag of `current` does no harm: a tick that does not
use up its slice, a wake-up that does not pull it into the array of OTHER tasks, and an end of
the fork at which it is the parent of the child. -/
def ForkSafe (s : Sys) : Op → Prop
  | .schedulerTick => ¬(s.current.justGotForked ≠ 0 ∧ s.current.timeSlice = 1)
  | .tryToWakeUp p _ => ¬(s.current.justGotForked ≠ 0 ∧ (s.task p).array = none ∧
      (s.task p).pOpptr = s.rq.curr ∧ (s.task p).iAmOverdue = 0 ∧ (s.task p).OtherTask)
  | .doForkWake => ¬(s.current.justGotForked ≠ 0 ∧ s.current.pOpptr ≠ s.rq.curr ∧
      ∃ f ∈ s.forking, f.cloneFlags &&& cloneParent ≠ 0)
  | _ => True

instance (s : Sys) : DecidablePred (ForkSafe s)
  | .schedulerTick | .tryToWakeUp _ _ | .doForkWake => inferInstanceAs (Decidable (¬_))
  | .schedule | .setUserNice _ _ | .setscheduler _ _ _ | .sysSchedYield | .doFork _ _
  | .doForkSplit | .vforkReturn | .schedExit _ | .doExit _ | .setCurrentState _ | .setSigpending _ _
  | .setJiffies _ => inferInstanceAs (Decidable True)

variable {s s' : Sys} {op : Op} {t : TaskId} {f : PendingFork}

/-- The only flag that the fork branch may find is that of `current`. -/
theorem ForkWindow.parent (h : ForkWindow s f) (hbranch : s.ForkBranch t) :
    (s.task t).pOpptr = s.rq.curr := by
  by_contra hne
  exact hbranch.2.2.2 (h.flags _ hne)

/-- A SHORT `current` is queued in `rt_short`. -/
theorem Sys.RqInv.short_current (h : s.RqInv) (hne : s.rq.curr ≠ s.rq.idle)
    (hshort : s.current.ShortTask) : s.current.array = some s.rq.rtShort := by
  obtain ⟨array, harray⟩ := h.toRqAgree.current_queued hne
  rw [harray, ((h.tasks _ hne).fits array harray).short hshort]

/-- A task that is neither OTHER nor overdue goes to `rt_short`. -/
theorem pointer_rtShort {p : TaskSched} (hok : TaskOk p) (hother : ¬p.OtherTask)
    (hover : p.iAmOverdue = 0) (q : RqPtrs) : pointerToMyActivePrioArray p q = q.rtShort := by
  rcases TaskOk.policy_cases p.policy with hrt | hc | hshort
  · exact if_pos (.inr (hok.rtTask_iff.mpr hrt))
  · exact absurd hc hother
  · exact if_pos (.inl ⟨hshort, hover⟩)

variable [Param]

/-! ## Interrupts in the window -/

/-- A tick that does not use up the slice of a SHORT task. -/
theorem Task.afterTick_of_short {u : Task} (hok : TaskOk u.toTaskSched) (hshort : u.ShortTask)
    (hslice : u.timeSlice ≠ 1) :
    u.afterTick.toTaskSched = { u.toTaskSched with timeSlice := u.timeSlice - 1 } :=
  Task.afterTick_run (hok.not_rtTask (.inr hshort.1)) hslice

/-- **A tick in a window** leaves the flag of `current` alone, unless the slice ends. -/
theorem ForkWindow.schedulerTick (h : ForkWindow s f) (hinv : s.RqInv)
    (hsafe : ForkSafe s .schedulerTick) : ForkWindow s.schedulerTick f := by
  have hptrs := samePtrs_schedulerTick s
  have hchild : s.schedulerTick.task f.child = s.task f.child :=
    schedulerTick_task_of_ne h.child_ne_curr
  refine ⟨?_, ?_, ?_, ?_, fun t ht => ?_, fun hsplit => ?_, fun hflag => ?_⟩
  · rw [hchild]
    exact h.child_array
  · rw [hptrs.idle]
    exact h.child_ne_idle
  · rw [hptrs.curr]
    exact h.child_ne_curr
  · rw [(sameLists_schedulerTick s).tasklist]
    exact h.child_not_listed
  · rw [hptrs.curr] at ht
    rw [(schedulerTick_frame s t).1]
    exact h.flags t ht
  · rw [current, hptrs.curr, (schedulerTick_frame s _).1]
    exact h.unsplit hsplit
  · rw [current, hptrs.curr, (schedulerTick_frame s _).1] at hflag
    obtain ⟨hne, hshort, hchildShort⟩ := h.flagged hflag
    have hslice : s.current.timeSlice ≠ 1 := fun hc => hsafe ⟨hflag, hc⟩
    rw [current, hptrs.curr, hptrs.idle, hchild, schedulerTick_sched]
    refine ⟨hne, ?_, hchildShort⟩
    split
    · rw [Task.afterTick_of_short (hinv.tasks _ hne).ok hshort hslice]
      exact hshort
    · exact hshort

omit [Param] in
/-- A wake-up in the window pulls `current` along only within `rt_short`. -/
theorem ForkWindow.forkFits (h : ForkWindow s f) (hinv : s.RqInv) {p : TaskId} {sync : Bool}
    (hp : p ∈ s.tasklist) (hidle : p ≠ s.rq.idle) (hsafe : ForkSafe s (.tryToWakeUp p sync))
    (hasleep : (s.task p).array = none) : s.ForkFits p := by
  intro hbranch
  have hparent := h.parent hbranch
  have hflag : s.current.justGotForked ≠ 0 := hbranch.2.1
  obtain ⟨hne, hshort, -⟩ := h.flagged hflag
  have hother : ¬(s.task p).OtherTask := fun hc =>
    hsafe ⟨hflag, hasleep, hparent, hbranch.2.2.1, hc⟩
  refine ⟨hparent, List.ne_nil_of_mem hp, ?_⟩
  rw [hinv.short_current hne hshort,
    pointer_rtShort (hinv.tasks p hidle).ok hother hbranch.2.2.1]

/-- **A wake-up in a window** pulls nobody along, unless the condition says so. -/
theorem ForkWindow.tryToWakeUp (h : ForkWindow s f) (hinv : s.RqInv) {p : TaskId} (sync : Bool)
    (hp : p ∈ s.tasklist) : ForkWindow (s.tryToWakeUp p sync).2 f := by
  have hptrs := samePtrs_tryToWakeUp p sync s
  have hne : f.child ≠ p := by
    intro hc
    exact h.child_not_listed (hc ▸ hp)
  have hpulled : f.child ∉ s.pulled p := fun hc =>
    justGotForked_of_mem_pulled hc (h.flags _ h.child_ne_curr)
  have hflags : ∀ t, ((s.tryToWakeUp p sync).2.task t).justGotForked ≠ 0 →
      (s.task t).justGotForked ≠ 0 := by
    intro t hflag
    rw [tryToWakeUp_justGotForked] at hflag
    split at hflag
    · exact absurd rfl hflag
    · exact hflag
  refine ⟨?_, ?_, ?_, ?_, fun t ht => ?_, fun hsplit => ?_, fun hflag => ?_⟩
  · rw [tryToWakeUp_array, if_neg fun hc => hc.2.elim hne hpulled]
    exact h.child_array
  · rw [hptrs.idle]
    exact h.child_ne_idle
  · rw [hptrs.curr]
    exact h.child_ne_curr
  · rw [(sameLists_tryToWakeUp p sync s).tasklist]
    exact h.child_not_listed
  · rw [hptrs.curr] at ht
    by_contra hflag
    exact hflags t hflag (h.flags t ht)
  · rw [current, hptrs.curr]
    by_contra hflag
    exact hflags _ hflag (h.unsplit hsplit)
  · rw [current, hptrs.curr] at hflag
    obtain ⟨hidle, hshort, hchild⟩ := h.flagged (hflags _ hflag)
    have hqueued := hinv.short_current hidle hshort
    have hcurr : ¬(s.rq.curr = p ∧ (s.task p).array = none) := by
      rintro ⟨hc, hasleep⟩
      rw [← hc, hqueued] at hasleep
      cases hasleep
    rw [current, hptrs.curr, hptrs.idle, tryToWakeUp_sched, if_neg hcurr, tryToWakeUp_sched,
      if_neg fun hc => hne hc.1]
    exact ⟨hidle, hshort, hchild⟩

omit [Param] in
/-- What is recorded about tasks does not matter. -/
theorem ForkWindow.sameTasks (h : ForkWindow s f) (hsame : SameTasks s s') (hrq : s'.rq = s.rq)
    (htasklist : s'.tasklist = s.tasklist) : ForkWindow s' f := by
  refine ⟨?_, ?_, ?_, ?_, fun t ht => ?_, fun hsplit => ?_, fun hflag => ?_⟩
  · rw [hsame.array]
    exact h.child_array
  · rw [hrq]
    exact h.child_ne_idle
  · rw [hrq]
    exact h.child_ne_curr
  · rw [htasklist]
    exact h.child_not_listed
  · rw [hrq] at ht
    rw [hsame.justGotForked]
    exact h.flags t ht
  · rw [current, hrq, hsame.justGotForked]
    exact h.unsplit hsplit
  · rw [current, hrq, hsame.justGotForked] at hflag
    rw [current, hrq, hsame.sched, hsame.sched]
    exact h.flagged hflag

/-! ## The copy -/

section copied

variable {env : ForkEnv}

omit [Param] in
/-- The child is a valid task in no array. -/
theorem Sys.RqInv.copied (h : s.RqInv) (cloneFlags : UInt32) (hne : s.rq.curr ≠ s.rq.idle)
    (hfresh : Op.FreshTask s env.child) : (s.copied cloneFlags env).RqInv := by
  refine h.step (p := env.child) ?_ hfresh.ne_idle (SamePtrs.refl _).upToSwap ?_ ?_ ?_ ⟨?_, ?_⟩
  · refine h.toRqAgree.congr rfl (fun t => ?_) (fun t ht => ?_) rfl rfl rfl
    · by_cases ht : t = env.child
      · rw [ht, copied_child, hfresh.not_queued]
        rfl
      · rw [copied_of_ne ht]
    · rw [copied_of_ne]
      rintro rfl
      exact ht hfresh.not_queued
  · exact fun t ht => by rw [copied_of_ne ht]
  · exact fun t ht => by rw [copied_of_ne ht]
  · rw [copied_of_ne hfresh.ne_idle.symm]
  · rw [copied_child]
    exact (h.tasks _ hne).ok
  · intro array harray
    rw [copied_child] at harray
    cases harray

omit [Param] in
/-- No flag is up after the copy. -/
theorem forkWindow_copied (hflags : s.NoFlags) (cloneFlags : UInt32)
    (hfresh : Op.FreshTask s env.child) :
    ForkWindow (s.copied cloneFlags env) ⟨env.child, cloneFlags, false⟩ := by
  have hnone : ∀ t, ((s.copied cloneFlags env).task t).justGotForked = 0 := by
    intro t
    by_cases ht : t = env.child
    · rw [ht, copied_child]
      exact hflags _
    · rw [copied_of_ne ht]
      exact hflags t
  refine ⟨?_, hfresh.ne_idle, hfresh.ne_curr, hfresh.not_listed, fun t _ => hnone t,
    fun _ => hnone _, fun hflag => absurd (hnone _) hflag⟩
  rw [copied_child]
  rfl

end copied

/-! ## The split -/

omit [Param] in
/-- The child and the parent have new slices. -/
theorem Sys.RqInv.forkSplit (h : s.RqInv) (hne : s.rq.curr ≠ s.rq.idle)
    (hcopy : Op.CopiedTask s f.child) : (s.forkSplit f).RqInv := by
  have hchild : (s.modify f.child (s.current.forkChild s.jiffies)).RqInv :=
    h.setSlice hcopy.ne_idle ⟨_, _, Task.forkChild_sched s.jiffies hcopy.policy⟩
      (Task.forkChild_frame _ _ _).1
  refine hchild.setSlice (p := s.rq.curr) hne
    ⟨s.current.parentSlice, s.current.firstTimeSlice, ?_⟩ ?_
  · rw [modify_task, Function.update_of_ne hcopy.ne_curr.symm, Task.parentSplit_eq]
  · rw [Task.parentSplit_eq]

/-- **`do_fork`** at `__restore_flags`. -/
theorem Sys.RqInv.forked (h : s.RqInv) (hne : s.rq.curr ≠ s.rq.idle)
    (hcopy : Op.CopiedTask s f.child) : (s.forked f).RqInv := by
  have hsplit := h.forkSplit hne hcopy
  have hlast : (s.forkSplit f).lastJiffy.RqInv := by
    rw [lastJiffy_eq]
    split
    · exact (hsplit.setSlice (p := s.rq.curr) hne (f := Task.lastJiffy) ⟨1, _, rfl⟩
        rfl).schedulerTick
    · exact hsplit
  exact hlast.congr (fun _ => rfl) (fun _ => rfl) rfl rfl

/-- The split raises the flag of `current` at most. -/
theorem ForkWindow.forked (h : ForkWindow s f) (hunsplit : f.split = false)
    (hne : s.rq.curr ≠ s.rq.idle) (hcopy : Op.CopiedTask s f.child) :
    ForkWindow (s.forked f) { f with split := true } := by
  have hptrs : SamePtrs s.rq.toRqPtrs (s.forked f).rq.toRqPtrs := samePtrs_forked
  have hframe := Task.forkChild_frame s.jiffies s.current (s.task f.child)
  have hchild : (s.forked f).task f.child = s.current.forkChild s.jiffies (s.task f.child) :=
    forked_child hcopy.ne_curr
  refine ⟨?_, ?_, ?_, ?_, fun t ht => ?_, nofun, fun hflag => ?_⟩
  · rw [hchild, hframe.1]
    exact h.child_array
  · rw [hptrs.idle]
    exact h.child_ne_idle
  · rw [hptrs.curr]
    exact h.child_ne_curr
  · rw [forked_tasklist]
    exact h.child_not_listed
  · rw [hptrs.curr] at ht
    by_cases hc : t = f.child
    · rw [hc, hchild, hframe.2.1]
      exact h.flags _ h.child_ne_curr
    · rw [forked_of_ne hc ht]
      exact h.flags t ht
  · rw [current, hptrs.curr] at hflag
    by_cases hslice : s.current.parentSlice = 0
    · exact absurd (forked_current_flag hcopy.ne_curr hslice) hflag
    · rw [forked_current hcopy.ne_curr hslice, Task.parentSplit_eq] at hflag
      have hshort : s.current.ShortTask := by
        by_contra hc
        rw [if_neg hc] at hflag
        exact hflag (h.unsplit hunsplit)
      rw [current, hptrs.curr, hptrs.idle, forked_current hcopy.ne_curr hslice,
        Task.parentSplit_eq, hchild, Task.forkChild_sched _ hcopy.policy]
      exact ⟨hne, hshort, hcopy.short hshort⟩

/-! ## The end of a fork -/

/-- The child before it is activated. -/
theorem Sys.RqInv.forkPrepare (h : s.RqInv) (hwindow : ForkWindow s f) :
    (s.forkPrepare f).RqInv := by
  have hprep := forkPrepared f s
  have hinv := h.tasks _ hwindow.child_ne_idle
  refine h.step (p := f.child) ?_ hwindow.child_ne_idle (SamePtrs.of_eq ?_).upToSwap hprep.sched
    (fun t _ => hprep.array t) (hprep.state _ hwindow.child_ne_idle.symm) ⟨?_, ?_⟩
  · refine h.toRqAgree.congr (by rw [hprep.rq]) hprep.array (fun t ht => ?_) (by rw [hprep.rq])
      (by rw [hprep.rq]) (by rw [hprep.rq])
    rw [hprep.sched]
    rintro rfl
    exact ht hwindow.child_array
  · rw [hprep.rq]
  · obtain ⟨sleepAvg, hsched⟩ := hprep.child_sched
    rw [hsched]
    split
    · exact hinv.ok
    · next hrt => exact hinv.ok.setPrio hrt (effectivePrio_range hinv.ok.static_prio)
  · intro array harray
    rw [hprep.array, hwindow.child_array] at harray
    cases harray

/-- What the child and its parent look like when the child is activated. -/
theorem ForkWindow.prepared (h : ForkWindow s f) (hflag : s.current.justGotForked ≠ 0) :
    (s.forkPrepare f).current.ShortTask ∧ (s.forkPrepare f).current.justGotForked ≠ 0 ∧
      ((s.forkPrepare f).task f.child).ShortTask := by
  have hprep := forkPrepared f s
  obtain ⟨-, hshort, hchild⟩ := h.flagged hflag
  obtain ⟨sleepAvg, hsched⟩ := hprep.child_sched
  rw [current, hprep.rq, hprep.sched _ h.child_ne_curr.symm, hprep.justGotForked, hsched]
  refine ⟨hshort, hflag, ?_⟩
  split <;> exact hchild

/-- The child pulls `current` along only within `rt_short`. -/
theorem ForkWindow.forkFits_child (h : ForkWindow s f) (hinv : s.RqInv) :
    (s.forkPrepare f).ForkFits f.child := by
  have hprep := forkPrepared f s
  rintro ⟨-, hcurr, -, hparent⟩
  rw [current, hprep.rq, hprep.justGotForked] at hcurr
  rw [hprep.justGotForked] at hparent
  obtain ⟨hne, hshort, -⟩ := h.flagged hcurr
  refine ⟨?_, ?_, ?_⟩
  · rw [hprep.rq]
    by_contra hc
    exact hparent (h.flags _ hc)
  · rw [hprep.tasklist]
    exact List.append_ne_nil_of_right_ne_nil _ (List.cons_ne_nil _ _)
  · rw [current, hprep.rq, hprep.array, hinv.short_current hne hshort,
      pointerToMyActivePrioArray, if_pos (.inl (h.prepared hcurr).2.2)]

/-- A child that pulls `current` along lowers its flag. -/
theorem ForkWindow.flag_lowered (h : ForkWindow s f) (hf : s.forking = some f)
    (hsafe : ForkSafe s .doForkWake) (hflag : s.current.justGotForked ≠ 0) :
    s.rq.curr ∈ (s.forkPrepare f).pulled f.child := by
  have hprep := forkPrepared f s
  obtain ⟨hshort, hcurr, hchild⟩ := h.prepared hflag
  have hparent : ((s.forkPrepare f).task f.child).pOpptr = (s.forkPrepare f).rq.curr := by
    rw [hprep.child_pOpptr, hprep.rq]
    split
    · rfl
    · next hclone =>
      by_contra hc
      exact hsafe ⟨hflag, hc, f, hf, hclone⟩
  have hlist : (s.forkPrepare f).tasklist ≠ [] := by
    rw [hprep.tasklist]
    exact List.append_ne_nil_of_right_ne_nil _ (List.cons_ne_nil _ _)
  have hbranch : (s.forkPrepare f).ForkBranch f.child := by
    refine ⟨hshort.1, hcurr, hchild.2, ?_⟩
    rw [hparent]
    exact hcurr
  rw [pulled_of_parent hbranch hparent hlist, hprep.rq]
  exact List.mem_singleton_self _

/-- **`do_fork`** from `__restore_flags` on. -/
theorem ForkInv.doForkWake (h : ForkInv s) (hf : s.forking = some f)
    (hsafe : ForkSafe s .doForkWake) :
    (((s.forkPrepare f).activateTask f.child).forkOut f.cloneFlags).RqInv ∧
      (((s.forkPrepare f).activateTask f.child).forkOut f.cloneFlags).NoFlags := by
  have hwindow := h.window f hf
  have hprep := forkPrepared f s
  have hactivate : ((s.forkPrepare f).activateTask f.child).RqInv := by
    refine (h.toRqInv.forkPrepare hwindow).activateTask ?_ ?_ (hwindow.forkFits_child h.toRqInv)
    · rw [hprep.array]
      exact hwindow.child_array
    · rw [hprep.rq]
      exact hwindow.child_ne_idle
  set s₁ := (s.forkPrepare f).activateTask f.child with hs₁
  have hout := sameTasks_forkOut f.cloneFlags s₁
  constructor
  · apply hactivate.sameTasks hout (forkOut_rq _ _)
    unfold forkOut
    split
    · rfl
    split
    · rfl
    · exact modify_proj (fun t => t.state) rfl _
  · intro t
    rw [hout.justGotForked, hs₁, activateTask_task]
    dsimp only
    split
    · rfl
    · next hpulled =>
      rw [hprep.justGotForked]
      by_contra hflag
      by_cases ht : t = s.rq.curr
      · subst ht
        exact hpulled (hwindow.flag_lowered hf hsafe hflag)
      · exact hflag (hwindow.flags t ht)

/-! ## Steps and runs -/

omit [Param] in
/-- Outside of a fork. -/
theorem forkInv_of_noFlags (hinv : s.RqInv) (hflags : s.NoFlags) (hforking : s.forking = none) :
    ForkInv s where
  toRqInv := hinv
  noFlags _ := hflags
  window f hf := by
    rw [hforking] at hf
    cases hf

omit [Param] in
theorem ForkInv.sameTasks (h : ForkInv s) (hsame : SameTasks s s') (hrq : s'.rq = s.rq)
    (hstate : (s'.task s.rq.idle).state = (s.task s.rq.idle).state)
    (hlists : SameLists s s') : ForkInv s' where
  toRqInv := h.toRqInv.sameTasks hsame hrq hstate
  noFlags hnone := (h.noFlags (hlists.forking ▸ hnone)).sameTasks hsame
  window f hf := (h.window f (hlists.forking ▸ hf)).sameTasks hsame hrq hlists.tasklist

/-- A wake-up keeps the invariant, inside a fork and outside. -/
theorem ForkInv.tryToWakeUp (h : ForkInv s) {p : TaskId} {sync : Bool}
    (hen : (Op.tryToWakeUp p sync).Enabled s) (hsafe : ForkSafe s (.tryToWakeUp p sync)) :
    ForkInv (s.tryToWakeUp p sync).2 where
  toRqInv := by
    refine h.toRqInv.tryToWakeUp hen.2 sync fun hasleep => ?_
    cases hf : s.forking with
    | none => exact forkFits_of_not_forkBranch fun hbranch => hbranch.2.1 (h.noFlags hf _)
    | some f => exact (h.window f hf).forkFits h.toRqInv hen.1 hen.2 hsafe hasleep
  noFlags hnone t := by
    rw [(sameLists_tryToWakeUp p sync s).forking] at hnone
    rw [tryToWakeUp_justGotForked]
    split
    · rfl
    · exact h.noFlags hnone t
  window f hf := by
    rw [(sameLists_tryToWakeUp p sync s).forking] at hf
    exact (h.window f hf).tryToWakeUp h.toRqInv sync hen.1

/-- So does a tick. -/
theorem ForkInv.schedulerTick (h : ForkInv s) (hsafe : ForkSafe s .schedulerTick) :
    ForkInv s.schedulerTick where
  toRqInv := h.toRqInv.schedulerTick
  noFlags hnone t := by
    rw [(sameLists_schedulerTick s).forking] at hnone
    rw [(schedulerTick_frame s t).1]
    exact h.noFlags hnone t
  window f hf := by
    rw [(sameLists_schedulerTick s).forking] at hf
    exact (h.window f hf).schedulerTick h.toRqInv hsafe

/-- The parent of a child that is reaped gets a new slice. -/
theorem Sys.RqInv.schedExit (h : s.RqInv) (hne : s.rq.curr ≠ s.rq.idle) (p : TaskId) :
    (s.schedExit p).RqInv := by
  obtain ⟨timeSlice, sleepAvg, hreap⟩ := reapChild_eq (s.task p) s.current
  refine h.setSlice hne ⟨timeSlice, s.current.firstTimeSlice, ?_⟩ ?_
  · rw [hreap]
  · rw [hreap]

omit [Param] in
/-- The children of a task that exits get another parent. -/
theorem ForkInv.doExit (h : ForkInv s) (hnone : s.forking = none) (hne : s.rq.curr ≠ s.rq.idle)
    {task : TaskId → Task} (htask : ∀ t, ∃ pOpptr, task t = { s.task t with pOpptr := pOpptr }) :
    ForkInv ({ s with task := task }.modify s.rq.curr fun t => { t with state := .zombie }) := by
  have hproj : ∀ {α : Type} (g : Task → α), (∀ t x, g { t with pOpptr := x } = g t) →
      (∀ t x, g { t with state := x } = g t) → ∀ t,
      g (({ s with task := task }.modify s.rq.curr fun t => { t with state := .zombie }).task t) =
        g (s.task t) := by
    intro α g hg hg' t
    obtain ⟨pOpptr, ht⟩ := htask t
    rw [modify_proj g (hg' _ _)]
    show g (task t) = _
    rw [ht, hg]
  refine forkInv_of_noFlags ?_ (fun t => ?_) hnone
  · refine h.toRqInv.congr (hproj _ (fun _ _ => rfl) fun _ _ => rfl)
      (hproj (fun t => t.array) (fun _ _ => rfl) fun _ _ => rfl) rfl ?_
    rw [modify_task, Function.update_of_ne hne.symm]
    obtain ⟨pOpptr, ht⟩ := htask s.rq.idle
    show (task s.rq.idle).state = _
    rw [ht]
  · rw [hproj (fun t => t.justGotForked) (fun _ _ => rfl) fun _ _ => rfl]
    exact h.noFlags hnone t

/-- **Every step** keeps the invariant if the flag of `current` does no harm. -/
theorem ForkInv.step (h : ForkInv s) (hstep : Step s op s') (hsafe : ForkSafe s op) :
    ForkInv s' := by
  -- the operations of the scheduler outside of a fork
  have hsched : op.InScheduler → s.forking = none → SameLists s s' → ForkInv s' := by
    intro hop hnone hlists
    obtain ⟨hinv, hflags⟩ := RqInv.step_inScheduler ⟨h.toRqInv, h.noFlags hnone⟩ hop hstep
    exact forkInv_of_noFlags hinv hflags (hlists.forking.trans hnone)
  obtain ⟨hen, hexec⟩ := hstep
  cases op with
  | tryToWakeUp p sync =>
    obtain rfl := Option.some.inj hexec
    exact h.tryToWakeUp hen hsafe
  | schedulerTick =>
    obtain rfl := Option.some.inj hexec
    exact h.schedulerTick hsafe
  | schedule => exact hsched trivial hen (sameLists_schedule hexec)
  | setUserNice p nice =>
    obtain rfl := Option.some.inj hexec
    exact hsched trivial hen.1 (sameLists_setUserNice p nice s)
  | setscheduler pid policy param =>
    obtain ⟨r, hr, rfl⟩ := Option.map_eq_some_iff.mp hexec
    exact hsched trivial hen.1 (sameLists_setscheduler hr)
  | sysSchedYield => exact hsched trivial hen.1 (sameLists_sysSchedYield hexec)
  | setCurrentState state =>
    obtain rfl := Option.some.inj hexec
    exact hsched trivial hen.1.1 ⟨rfl, rfl⟩
  | doFork cloneFlags env =>
    obtain rfl := Option.some.inj hexec
    rcases doFork_cases cloneFlags env s with ⟨-, hsame⟩ | ⟨-, hcopied⟩
    · rw [hsame]
      exact h
    · rw [hcopied]
      refine ⟨h.toRqInv.copied cloneFlags hen.1.2 hen.2, nofun, fun f hf => ?_⟩
      rw [← Option.some.inj hf]
      exact forkWindow_copied (h.noFlags hen.1.1) cloneFlags hen.2
  | doForkSplit =>
    obtain ⟨f, hf, hunsplit, hidle, hcopy, -, rfl⟩ := doForkSplit_step ⟨hen, hexec⟩
    refine ⟨h.toRqInv.forked hidle hcopy, nofun, fun f' hf' => ?_⟩
    rw [← Option.some.inj hf']
    exact (h.window f hf).forked hunsplit hidle hcopy
  | doForkWake =>
    obtain ⟨f, hf, rfl⟩ := doForkWake_eq_some hexec
    obtain ⟨hinv, hflags⟩ := h.doForkWake hf hsafe
    obtain ⟨_, -, -, hforking⟩ := doForkWake_lists hexec
    exact forkInv_of_noFlags hinv hflags hforking
  | vforkReturn =>
    obtain rfl := Option.some.inj hexec
    unfold vforkReturn
    split
    · exact h.sameTasks (.setTskNeedResched _ s) rfl (modify_proj (fun t => t.state) rfl _)
        ⟨rfl, rfl⟩
    · exact h
  | schedExit p =>
    obtain rfl := Option.some.inj hexec
    have hinv := h.toRqInv.schedExit hen.1.2 p
    refine forkInv_of_noFlags (hinv.congr (fun _ => rfl) (fun _ => rfl) rfl rfl) (fun t => ?_)
      hen.1.1
    obtain ⟨timeSlice, sleepAvg, hreap⟩ := reapChild_eq (s.task p) s.current
    have hflag : ((s.task p).reapChild s.current).justGotForked = s.current.justGotForked := by
      rw [hreap]
    show ((s.schedExit p).task t).justGotForked = 0
    rw [schedExit, modify_proj (fun t => t.justGotForked) hflag]
    exact h.noFlags hen.1.1 t
  | doExit reaper =>
    obtain rfl := Option.some.inj hexec
    refine h.doExit hen.1.1 hen.1.2 fun t => ?_
    dsimp only
    split
    · exact ⟨reaper, rfl⟩
    · exact ⟨(s.task t).pOpptr, rfl⟩
  | setSigpending p pending =>
    obtain rfl := Option.some.inj hexec
    exact h.sameTasks (.modify rfl rfl rfl rfl) rfl (modify_proj (fun t => t.state) rfl _)
      ⟨rfl, rfl⟩
  | setJiffies jiffies =>
    obtain rfl := Option.some.inj hexec
    exact h.sameTasks (.of_task rfl) rfl rfl ⟨rfl, rfl⟩

/-- **Forks are safe** in every run in which no step inside a fork lets the flag of `current` do
harm: whenever no fork is pending, the representation invariant holds and no flag is raised. -/
theorem rqInv_of_fork_run {ops : List Op} (hinv : s.RqInv) (hflags : s.NoFlags)
    (hforking : s.forking = none) (hrun : Run (Guarded ForkSafe Step) s ops s') :
    s'.RqInv ∧ (s'.forking = none → s'.NoFlags) := by
  have hend : ForkInv s' :=
    hrun.invariant (fun _ _ _ h hguarded => h.step hguarded.2 hguarded.1)
      (forkInv_of_noFlags hinv hflags hforking)
  exact ⟨hend.toRqInv, hend.noFlags⟩

/-- A SHORT task runs alone. -/
def shortAlone : Sys :=
  let task : Task :=
    { timeSlice := 100, pid := 1, policy := .short, requestedTime := 100, iWasShort := 1,
      array := some .shortArrays0 }
  ofList [task] 1

omit [Param] in
theorem rqInv_shortAlone : shortAlone.RqInv := rqInv_ofList (by decide) (by decide)

omit [Param] in
theorem noFlags_shortAlone : shortAlone.NoFlags := noFlags_ofList (by decide)

omit [Param] in
/-- With `CLONE_PARENT` the flag of the parent stays raised. -/
theorem fork_leaves_flag : shortAlone.RqInv ∧ shortAlone.NoFlags ∧ shortAlone.forking = none ∧
    ∃ s', @runOps hz100 [.doFork cloneParent ⟨2, 2, 0⟩, .doForkSplit, .doForkWake] shortAlone =
      some s' ∧ s'.forking = none ∧ ¬s'.NoFlags := by
  let ops : List Op := [.doFork cloneParent ⟨2, 2, 0⟩, .doForkSplit, .doForkWake]
  have hresult : ((@runOps hz100 ops shortAlone).map fun s =>
      (s.forking, (s.task 1).justGotForked)) = some (none, 1) := by
    decide +kernel
  obtain ⟨s', hs', hfields⟩ := Option.map_eq_some_iff.mp hresult
  obtain ⟨hforking, hflag⟩ := Prod.mk.inj hfields
  refine ⟨rqInv_shortAlone, noFlags_shortAlone, rfl, s', hs', hforking, fun hflags => ?_⟩
  rw [hflags 1] at hflag
  cases hflag

omit [Param] in
/-- A fork with a tick in each window. -/
theorem rqInv_of_fork_run_tick :
    let ops : List Op := [.doFork 0 ⟨2, 2, 0⟩, .schedulerTick, .doForkSplit, .schedulerTick,
      .doForkWake]
    ∃ s', @runIf hz100 ForkSafe _ ops shortAlone = some s' ∧ s'.RqInv ∧
      (s'.forking = none → s'.NoFlags) := by
  intro ops
  have hruns : (@runIf hz100 ForkSafe _ ops shortAlone).isSome = true := by decide +kernel
  obtain ⟨s', hs'⟩ := Option.isSome_iff_exists.mp hruns
  have hrun := (@guarded_run_iff_runIf hz100 _ _ _ _ _).mpr hs'
  exact ⟨s', hs', @rqInv_of_fork_run _ _ hz100 _ rqInv_shortAlone noFlags_shortAlone rfl hrun⟩

end ShortSched
