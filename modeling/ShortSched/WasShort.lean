import ShortSched.Hw2Syscalls
import ShortSched.OfTasks
import ShortSched.TimeSteps

/-!
# What `sys_was_short` reports

`setscheduler` sets `iWasShort` when it makes a task SHORT, and nothing lowers it. `do_fork`
copies it with the rest of the structure, so that the child of a task that was SHORT once, and
is not any more, looks as if it had been SHORT itself.
-/

namespace ShortSched

open General Sys

/-! ## Histories -/

/-- The operation creates the task `t`. -/
def Creates (s : Sys) (t : TaskId) : Op → Prop
  | .doFork cloneFlags env => ¬s.ForkRefused cloneFlags env ∧ t = env.child
  | _ => False

instance (s : Sys) (t : TaskId) : DecidablePred (Creates s t)
  | .doFork _ _ => inferInstanceAs (Decidable (¬_ ∧ _))
  | .tryToWakeUp _ _ | .schedule | .schedulerTick | .setUserNice _ _ | .setscheduler _ _ _
  | .sysSchedYield | .doForkSplit | .doForkWake | .vforkReturn | .schedExit _ | .doExit _
  | .setCurrentState _ | .setSigpending _ _ | .setJiffies _ => inferInstanceAs (Decidable False)

/-- Which tasks have had the policy SHORT since they were created, the present moment not
counted. -/
def History.next (s : Sys) (op : Op) (h : TaskId → Bool) (t : TaskId) : Bool :=
  if Creates s t op then false else h t || decide ((s.task t).policy = .short)

/-- A fork that hands on a flag that is not the child's: `current` was SHORT and is not. -/
def InheritsFlag (s : Sys) : Op → Prop
  | .doFork cloneFlags env => ¬s.ForkRefused cloneFlags env ∧ s.current.policy ≠ .short ∧
      s.current.iWasShort ≠ 0
  | _ => False

instance (s : Sys) : DecidablePred (InheritsFlag s)
  | .doFork _ _ => inferInstanceAs (Decidable (¬_ ∧ _ ∧ _))
  | .tryToWakeUp _ _ | .schedule | .schedulerTick | .setUserNice _ _ | .setscheduler _ _ _
  | .sysSchedYield | .doForkSplit | .doForkWake | .vforkReturn | .schedExit _ | .doExit _
  | .setCurrentState _ | .setSigpending _ _ | .setJiffies _ => inferInstanceAs (Decidable False)

/-- `sys_was_short` reports the histories of all tasks that it is for. -/
def ReportsHistory (h : TaskId → Bool) (s : Sys) : Prop :=
  ∀ (pid : ℤ) (p : TaskId), 0 ≤ pid → s.findTaskByPid pid = some p → (s.task p).policy ≠ .short →
    s.sysWasShort pid = if h p then 1 else 0

theorem sysWasShort_of_found {s : Sys} {pid : ℤ} {p : TaskId} (hpid : 0 ≤ pid)
    (hfound : s.findTaskByPid pid = some p) (hnot : (s.task p).policy ≠ .short) :
    s.sysWasShort pid = (s.task p).iWasShort := by
  have hget : s.getProcess pid = .ok p := by
    rw [getProcess, if_neg (not_lt.mpr hpid), hfound]
  rw [sysWasShort, askProcess, hget]
  exact if_pos (decide_eq_true hnot)

/-! ## The flag -/

/-- The flag of a task tells whether it is or was SHORT. -/
def FlagOk (was : Bool) (p : TaskSched) : Prop :=
  p.iWasShort = if was || decide (p.policy = .short) then 1 else 0

theorem FlagOk.congr {was : Bool} {p p' : TaskSched} (h : FlagOk was p)
    (hflag : p'.iWasShort = p.iWasShort) (hpolicy : p'.policy = p.policy) : FlagOk was p' := by
  unfold FlagOk
  rwa [hflag, hpolicy]

/-- The history includes a moment once it is over. -/
theorem FlagOk.over {was : Bool} {p p' : TaskSched} (h : FlagOk was p)
    (hflag : p'.iWasShort = p.iWasShort) (hpolicy : p'.policy = p.policy ∨ p.policy = .short) :
    FlagOk (was || decide (p.policy = .short)) p' := by
  unfold FlagOk at h ⊢
  rw [hflag, h]
  rcases hpolicy with hsame | hshort
  · rw [hsame, Bool.or_assoc, Bool.or_self]
  · simp [hshort]

variable [Param] {s s' : Sys} {op : Op} {t : TaskId} {h : TaskId → Bool}

/-- A tick makes no task SHORT. -/
theorem Task.policy_afterTick (u : Task) :
    u.afterTick.policy = u.policy ∨ u.policy = .short := by
  have htick : u.tick.policy = u.policy := by rw [Task.tick_sched]
  by_cases hshort : u.policy = .short
  · exact .inr hshort
  left
  rcases u.afterTick_cases with ⟨_, _, -, heq⟩ | ⟨-, -, heq⟩
  · rw [heq]
  · rw [heq]
    show u.tick.expireClass.policy = u.policy
    have hnot : u.tick.policy ≠ .short := by rwa [htick]
    rw [Task.expireClass, if_neg fun hc => hnot hc.1, if_neg fun hc => hnot hc.1, htick]

omit [Param] in
/-- The structure that a fork writes is not left alone by it. -/
theorem Untouched.not_creates (h : Untouched s t op) : ¬Creates s t op := by
  intro hc
  cases op with
  | doFork cloneFlags env =>
    rcases h with hrefused | hne
    · exact hc.1 hrefused
    · exact hne hc.2
  | _ => exact hc

/-- **A step** keeps the flags of all tasks in line with their histories. -/
theorem FlagOk.step (hflags : ∀ t, FlagOk (h t) (s.task t).toTaskSched) (hstep : Step s op s')
    (hclean : ¬InheritsFlag s op) (t : TaskId) :
    FlagOk (History.next s op h t) (s'.task t).toTaskSched := by
  have hflag := hflags t
  have htime := step_time hstep t
  generalize (s'.task t).toTaskSched = p' at htime ⊢
  have hkeeps : ¬Creates s t op →
      History.next s op h t = (h t || decide ((s.task t).policy = .short)) := fun hc => if_neg hc
  cases htime with
  | same huntouched hsame =>
    rw [hkeeps]
    · exact hflag.over hsame.iWasShort (.inl hsame.policy)
    · exact huntouched.not_creates
  | tick =>
    rw [hkeeps id]
    exact hflag.over (Task.iWasShort_afterTick _) (Task.policy_afterTick _)
  | adjust =>
    rw [hkeeps id]
    exact hflag.over rfl (.inl rfl)
  | make _ _ _ _ hsame =>
    have hpolicy : p'.policy = .short := hsame.policy
    have hone : p'.iWasShort = 1 := hsame.iWasShort
    unfold FlagOk
    simp [hpolicy, hone]
  | @setPolicy _ _ _ _ policy' _ _ hnot hnew hsame =>
    have hpolicy : p'.policy = policy' := hsame.policy
    have hold : p'.iWasShort = (s.task t).iWasShort := hsame.iWasShort
    rw [hkeeps id]
    unfold FlagOk at hflag ⊢
    rw [hold, hflag, hpolicy]
    simp [hnot, hnew]
  | forkCopy hnot hchild =>
    -- the child has the flag of its parent
    have hparent := hflags s.rq.curr
    have hcreates : Creates s t (.doFork _ _) := ⟨hnot, hchild⟩
    rw [History.next, if_pos hcreates]
    by_cases hshort : s.current.policy = .short
    · unfold FlagOk at hparent ⊢
      simpa [hshort] using hparent
    · have hzero : s.current.iWasShort = 0 := by
        by_contra hc
        exact hclean ⟨hnot, hshort, hc⟩
      unfold FlagOk
      simp [hshort, hzero]
  | forkSlice | forkExpired | forkChild =>
    rw [hkeeps id]
    exact hflag.over rfl (.inl rfl)
  | forkTick =>
    rw [hkeeps id]
    exact hflag.over (Task.iWasShort_afterTick _) (Task.policy_afterTick _)
  | reap =>
    rw [hkeeps id]
    exact hflag.over rfl (.inl rfl)

/-! ## Runs -/

/-- **`sys_was_short` reports the history** of every task in every run without a fork that hands
on a flag; after such a fork the child has the flag and no such history. -/
theorem reportsHistory_of_run {ops : List Op}
    (hinit : ∀ t, (s.task t).policy ≠ .short ∧ (s.task t).iWasShort = 0)
    (hrun : Run (Ghost (Guarded (fun s op => ¬InheritsFlag s op) Step) History.next)
      (s, fun _ => false) ops (s', h)) :
    ReportsHistory h s' ∧ ∀ cloneFlags env s'', Step s' (.doFork cloneFlags env) s'' →
      InheritsFlag s' (.doFork cloneFlags env) →
        (s''.task env.child).iWasShort ≠ 0 ∧ (s''.task env.child).policy ≠ .short ∧
          History.next s' (.doFork cloneFlags env) h env.child = false := by
  have hflags : ∀ t, FlagOk (h t) (s'.task t).toTaskSched := by
    refine hrun.invariant (P := fun x => ∀ t, FlagOk (x.2 t) (x.1.task t).toTaskSched)
      (fun x op y hx hstep => ?_) fun t => ?_
    · obtain ⟨⟨hclean, hstep⟩, hnext⟩ := hstep
      rw [hnext]
      exact FlagOk.step hx hstep hclean
    · unfold FlagOk
      simp [hinit t]
  constructor
  · intro pid p hpid hfound hnot
    have hflag := hflags p
    unfold FlagOk at hflag
    rw [sysWasShort_of_found hpid hfound hnot, hflag]
    simp [hnot]
  · rintro cloneFlags env s'' hstep ⟨hnot, hpolicy, hflag⟩
    have hchild := doFork_child_sched hstep hnot
    refine ⟨?_, ?_, if_pos ⟨hnot, rfl⟩⟩
    · rw [hchild]
      exact hflag
    · rw [hchild]
      exact hpolicy

omit [Param] in
/-- A task is SHORT for three ticks and forks when it is OTHER again: its child, which never was
SHORT, is reported as one that was. -/
theorem child_reported_short :
    (∀ t, (privilegedTask.task t).policy ≠ .short ∧ (privilegedTask.task t).iWasShort = 0) ∧
    ∃ s' h, Run (Ghost (@Step hz100) History.next) (privilegedTask, fun _ => false)
        [.setscheduler 0 5 (.valid ⟨0, 10⟩), .schedulerTick, .schedulerTick, .schedulerTick,
          .doFork 0 ⟨2, 2, 0⟩, .doForkSplit, .doForkWake] (s', h) ∧
      s'.findTaskByPid 2 = some 2 ∧ (s'.task 2).policy = .other ∧ s'.sysWasShort 2 = 1 ∧
      h 2 = false ∧ ¬ReportsHistory h s' := by
  let before : List Op := [.setscheduler 0 5 (.valid ⟨0, 10⟩), .schedulerTick, .schedulerTick,
    .schedulerTick]
  let fork : Op := .doFork 0 ⟨2, 2, 0⟩
  let rest : List Op := [.doForkSplit, .doForkWake]
  refine ⟨policy_privilegedTask, ?_⟩
  have hall : ((@runOps hz100 (before ++ [fork] ++ rest) privilegedTask).map fun s =>
      (s.findTaskByPid 2, (s.task 2).policy, s.sysWasShort 2)) = some (some 2, .other, 1) := by
    decide +kernel
  have hcopied : ((@runOps hz100 (before ++ [fork]) privilegedTask).map fun s =>
      (s.task 2).policy) = some .other := by
    decide +kernel
  have hsplit : ((@runOps hz100 (before ++ [fork] ++ [.doForkSplit]) privilegedTask).map fun s =>
      (s.task 2).policy) = some .other := by
    decide +kernel
  obtain ⟨s', hs', hval⟩ := Option.map_eq_some_iff.mp hall
  simp only [Prod.mk.injEq] at hval
  obtain ⟨hfound, hpolicy, hreport⟩ := hval
  obtain ⟨h, hrun⟩ : ∃ h, Run (Ghost (@Step hz100) History.next) (privilegedTask, fun _ => false)
      (before ++ [fork] ++ rest) (s', h) :=
    ((@run_iff_runOps hz100 _ _ _).mpr hs').exists_ghost _
  -- the child's history begins with the fork
  obtain ⟨y, hbefore, hrest⟩ := Run.append_iff.mp hrun
  obtain ⟨x, hstart, hfork⟩ := Run.append_iff.mp hbefore
  have hfork := Run.single_iff.mp hfork
  obtain ⟨z, hyz, hrest⟩ := Run.cons_iff.mp hrest
  have hwake := Run.single_iff.mp hrest
  rw [(@run_iff_runOps hz100 _ _ _).mp hbefore.of_ghost] at hcopied
  rw [(@run_iff_runOps hz100 _ _ _).mp (hbefore.append (Run.single hyz)).of_ghost] at hsplit
  have hnew : y.2 2 = false := by
    rw [hfork.2]
    exact if_pos ⟨not_forkRefused_zero le_rfl, rfl⟩
  have hother : (y.1.task 2).policy = .other := Option.some.inj hcopied
  have hother' : (z.1.task 2).policy = .other := Option.some.inj hsplit
  have hsame : z.2 2 = false := by
    have hnext : z.2 = History.next y.1 .doForkSplit y.2 := hyz.2
    rw [hnext, History.next, if_neg (show ¬Creates y.1 2 .doForkSplit from id), hnew, hother]
    rfl
  have hhist : h 2 = false := by
    have hnext : h = History.next z.1 .doForkWake z.2 := hwake.2
    rw [hnext, History.next, if_neg (show ¬Creates z.1 2 .doForkWake from id), hsame, hother']
    rfl
  refine ⟨s', h, hrun, hfound, hpolicy, hreport, hhist, fun hreports => ?_⟩
  have hclaimed := hreports 2 2 (by decide) hfound (by rw [hpolicy]; decide)
  rw [hreport, hhist] at hclaimed
  exact absurd hclaimed (by decide)

omit [Param] in
/-- A task that is SHORT for three ticks is reported as one that was. -/
theorem reportsHistory_of_run_three : ∃ s' h,
    Run (Ghost (@Step hz100) History.next) (privilegedTask, fun _ => false)
        [.setscheduler 0 5 (.valid ⟨0, 10⟩), .schedulerTick, .schedulerTick, .schedulerTick]
        (s', h) ∧ ReportsHistory h s' := by
  let ops : List Op := [.setscheduler 0 5 (.valid ⟨0, 10⟩), .schedulerTick, .schedulerTick,
    .schedulerTick]
  have hall : (@runIf hz100 (fun s op => ¬InheritsFlag s op) _ ops privilegedTask).isSome = true := by
    decide +kernel
  obtain ⟨s', hs'⟩ := Option.isSome_iff_exists.mp hall
  obtain ⟨h, hrun⟩ : ∃ h, Run (Ghost (Guarded (fun s op => ¬InheritsFlag s op) (@Step hz100))
      History.next) (privilegedTask, fun _ => false) ops (s', h) :=
    ((@guarded_run_iff_runIf hz100 _ _ _ _ _).mpr hs').exists_ghost _
  exact ⟨s', h, hrun.mono fun _ _ _ hstep => ⟨hstep.1.2, hstep.2⟩,
    (@reportsHistory_of_run hz100 _ _ _ _ policy_privilegedTask hrun).1⟩

end ShortSched
