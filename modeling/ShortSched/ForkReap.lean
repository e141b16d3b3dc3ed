import ShortSched.RunningTime

/-!
# What a child costs that is reaped unused

A fork gives the greater half of the parent's slice to the child, and `sched_exit` gives back
what the child has left. The sum is cut to `MAX_TIMESLICE`, which bounds the slices of OTHER and
round-robin tasks; a SHORT task may have asked for ten times as much.
-/

namespace ShortSched

open General Sys

/-- A step that is no tick of `p`, no fork or reaping by `p`, no reaping of `p` and no system
call that sets its policy or its requested time. -/
def LeavesTime (p : TaskId) (s : Sys) : Op → Prop
  | .schedulerTick => s.rq.curr ≠ p
  | .doForkSplit => s.rq.curr ≠ p ∧ ∀ f ∈ s.forking, f.child ≠ p
  | .schedExit q => q ≠ p ∧ s.rq.curr ≠ p
  | .setscheduler pid _ _ => s.findProcessByPid pid ≠ some p
  | _ => True

instance (p : TaskId) (s : Sys) : DecidablePred (LeavesTime p s)
  | .schedulerTick | .setscheduler _ _ _ => inferInstanceAs (Decidable (_ ≠ _))
  | .doForkSplit => inferInstanceAs (Decidable (_ ∧ ∀ f ∈ s.forking, _))
  | .schedExit _ => inferInstanceAs (Decidable (_ ∧ _))
  | .tryToWakeUp _ _ | .schedule | .setUserNice _ _ | .sysSchedYield | .doFork _ _ | .doForkWake
  | .vforkReturn | .doExit _ | .setCurrentState _ | .setSigpending _ _ | .setJiffies _ =>
    inferInstanceAs (Decidable True)

variable [Param] {s s' s₁ s₂ s₃ s₄ s₅ : Sys} {op : Op} {p t : TaskId} {f : PendingFork}

/-! ## In between -/

/-- A step that is not about the time of a task keeps it. -/
theorem LeavesTime.sameTime (h : LeavesTime t s op) (hstep : Step s op s') (ht : s.IsTask t) :
    SameTime (s.task t).toTaskSched (s'.task t).toTaskSched := by
  have htime := step_time hstep t
  have hchild := ne_child_of_isTask hstep ht
  generalize (s'.task t).toTaskSched = p' at htime ⊢
  cases htime with
  | same _ hsame => exact hsame
  | tick hcurr => exact absurd hcurr.symm h
  | adjust target | make target | setPolicy target => exact absurd target.found h
  | forkCopy _ hc => exact absurd hc (hchild _ _ rfl)
  | forkSlice hcurr | forkExpired hcurr | forkTick hcurr => exact absurd hcurr.symm h.1
  | forkChild hf hc => exact absurd hc.symm (h.2 _ hf)
  | reap hcurr => exact absurd hcurr.symm h.2

theorem LeavesTime.isTask (h : LeavesTime t s op) (hstep : Step s op s') (ht : s.IsTask t) :
    s'.IsTask t := by
  refine isTask_step hstep ?_ ht
  rintro rfl
  exact h.1 rfl

/-- A task that nothing happens to keeps its time. -/
theorem sameTime_of_run {ops : List Op} (hrun : Run (Guarded (LeavesTime t) Step) s ops s')
    (ht : s.IsTask t) : SameTime (s.task t).toTaskSched (s'.task t).toTaskSched := by
  refine hrun.relates (P := fun s => s.IsTask t)
    (Q := fun s s' => SameTime (s.task t).toTaskSched (s'.task t).toTaskSched) (fun _ => .refl _) ?_
    (fun _ _ _ h hstep => hstep.1.isTask hstep.2 h)
    (fun _ _ _ h hstep => hstep.1.sameTime hstep.2 h) ht
  intro _ _ _ h h'
  exact h.trans h'

/-- A `current` whose time is left alone stays in the window before the split. -/
theorem inFork_of_run {ops : List Op} (hrun : Run (Guarded (LeavesTime t) Step) s ops s')
    (hcurr : s.rq.curr = t) (hf : s.forking = some f) (hsplit : f.split = false) :
    s'.rq.curr = t ∧ s'.forking = some f := by
  refine hrun.invariant (P := fun s => s.rq.curr = t ∧ s.forking = some f) ?_ ⟨hcurr, hf⟩
  rintro s op s' ⟨hcurr, hf⟩ ⟨hleaves, hstep⟩
  rcases interrupt_of_forking hf hstep.1 with hop | ⟨rfl, -⟩ | ⟨-, hc⟩
  · rw [(hop.samePtrs hstep).curr, (hop.sameLists hstep).forking]
    exact ⟨hcurr, hf⟩
  · exact absurd hcurr hleaves.1
  · rw [hsplit] at hc
    cases hc

/-! ## The fork and the reaping -/

theorem maxTimeslice_range : 30 ≤ maxTimeslice ∧ maxTimeslice ≤ 300 := by
  have hge := hz_ge
  have hle := hz_le
  unfold maxTimeslice
  omega

theorem toNat_maxTimeslice : ((UInt32.ofInt maxTimeslice).toNat : ℤ) = maxTimeslice := by
  obtain ⟨hge, hle⟩ := maxTimeslice_range
  exact toNat_ofInt (by omega) (by omega)

/-- The slice of a parent that reaps a child whose slice came from it. -/
theorem toNat_reapSlice {p t : Task} (hfirst : p.firstTimeSlice ≠ 0)
    (hwrap : t.timeSlice.toNat + p.timeSlice.toNat < 2 ^ 32) : ((p.reapSlice t).toNat : ℤ) =
      min (t.timeSlice.toNat + p.timeSlice.toNat : ℤ) maxTimeslice := by
  have hmax := toNat_maxTimeslice
  have hadd : (t.timeSlice + p.timeSlice).toNat = t.timeSlice.toNat + p.timeSlice.toNat := by
    rw [UInt32.toNat_add, Nat.mod_eq_of_lt hwrap]
  rw [Task.reapSlice, if_pos hfirst]
  split
  · next hgt =>
    rw [gt_iff_lt, UInt32.lt_iff_toNat_lt, hadd] at hgt
    omega
  · next hle =>
    rw [gt_iff_lt, UInt32.lt_iff_toNat_lt, hadd] at hle
    omega

/-- A parent gets at most what the child has left of a first slice, wherever the sum is cut. -/
theorem Task.reapSlice_le (p u : Task) : (p.reapSlice u).toNat ≤
    u.timeSlice.toNat + if p.firstTimeSlice ≠ 0 then p.timeSlice.toNat else 0 := by
  unfold reapSlice
  split
  · have hsum : (u.timeSlice + p.timeSlice).toNat ≤ u.timeSlice.toNat + p.timeSlice.toNat := by
      rw [UInt32.toNat_add]
      exact Nat.mod_le _ _
    split
    · next hmax =>
      rw [gt_iff_lt, UInt32.lt_iff_toNat_lt] at hmax
      omega
    · exact hsum
  · exact Nat.le_add_right _ _

theorem schedExit_curr_sched (hexit : Step s (.schedExit p) s') :
    (s'.task s.rq.curr).toTaskSched =
      { s.current.toTaskSched with timeSlice := (s.task p).reapSlice s.current } := by
  obtain rfl := Option.some.inj hexit.2
  show ((s.schedExit p).task s.rq.curr).toTaskSched = _
  rw [schedExit, modify_task, Function.update_self, Task.reapChild_sched]

/-- A split by a task that has something to share. -/
theorem split_shares (hfork : Step s .doForkSplit s') (hf : s.forking = some f)
    (hclass : s.current.policy = .short → s.current.ShortTask)
    (htwo : 2 ≤ s.current.timeSlice.toNat) :
    (s'.task s.rq.curr).timeSlice = s.current.parentSlice ∧
      (s'.task f.child).timeSlice = s.current.childSlice (s.task f.child) ∧
      (s'.task f.child).firstTimeSlice = 1 := by
  have hparent : s.current.parentSlice ≠ 0 := by
    intro hc
    have hhalf := Task.toNat_parentSlice hclass
    rw [hc] at hhalf
    have hzero : 0 = s.current.timeSlice.toNat / 2 := hhalf
    omega
  have hcurr : (s'.task s.rq.curr).timeSlice = s.current.parentSlice := by
    have htime := doForkSplit_curr_time hfork
    show (s'.task s.rq.curr).toTaskSched.timeSlice = _
    generalize (s'.task s.rq.curr).toTaskSched = p' at htime ⊢
    cases htime with
    | slice => rfl
    | expired _ hslice | tick _ hslice => exact absurd hslice hparent
  have hchild := doForkSplit_child_sched hfork hf
  exact ⟨hcurr, congrArg TaskSched.timeSlice hchild, congrArg TaskSched.firstTimeSlice hchild⟩

/-- The parents in question: SHORT with something to share, or with no more than `MAX_TIMESLICE`. -/
def SharesFairly (p : TaskSched) : Prop :=
  p.ShortTask ∧ 2 ≤ p.timeSlice.toNat ∨
    (p.policy = .other ∨ p.policy = .rr) ∧ 2 ≤ p.timeSlice.toNat ∧
      (p.timeSlice.toNat : ℤ) ≤ maxTimeslice

namespace SharesFairly

variable {q q' : TaskSched}

theorem congr (h : SharesFairly q) (hsame : SameTime q q') : SharesFairly q' := by
  unfold SharesFairly
  rw [hsame.shortTask_iff, hsame.timeSlice, hsame.policy]
  exact h

theorem short (h : SharesFairly q) (hshort : q.policy = .short) : q.ShortTask := by
  rcases h with ⟨hc, -⟩ | ⟨hc | hc, -⟩
  · exact hc
  · exact absurd (hc.symm.trans hshort) (by decide)
  · exact absurd (hc.symm.trans hshort) (by decide)

theorem two_le (h : SharesFairly q) : 2 ≤ q.timeSlice.toNat := h.elim And.right fun hc => hc.2.1

theorem no_wrap (h : SharesFairly q) : q.policy = .short ∨ q.timeSlice.toNat + 1 < 2 ^ 32 := by
  have hmax := maxTimeslice_range.2
  rcases h with hc | ⟨-, -, hle⟩
  · exact .inl hc.1.1
  · right
    omega

end SharesFairly

/-- From the split on. -/
theorem split_reaped_iff {ops : List Op} (hparent : SharesFairly s.current.toTaskSched)
    (htask : s.IsTask s.rq.curr) (hf : s.forking = some f) (hsplit : Step s .doForkSplit s₁)
    (hrun : Run (Guarded (fun t op => LeavesTime s.rq.curr t op ∧ LeavesTime f.child t op) Step)
      s₁ ops s₂)
    (hexit : Step s₂ (.schedExit f.child) s₃) (hcurr : s₂.rq.curr = s.rq.curr) :
    s.current.timeSlice.toNat ≤ (s₃.task s.rq.curr).timeSlice.toNat ↔
      ¬s.current.ShortTask ∨ (s.current.timeSlice.toNat : ℤ) ≤ maxTimeslice := by
  have hlt := s.current.timeSlice.toNat_lt
  have hmax := maxTimeslice_range.2
  -- the split
  obtain ⟨hslice, hchild, hfirst⟩ := split_shares hsplit hf hparent.short hparent.two_le
  have hsum := Task.split_slices (p := s.task f.child) hparent.short hparent.no_wrap
  -- the time in between
  have htask₁ : s₁.IsTask s.rq.curr := isTask_step hsplit nofun htask
  have hparent₂ := sameTime_of_run (hrun.mono fun _ _ _ h => ⟨h.1.1, h.2⟩) htask₁
  have hchild₂ := sameTime_of_run (hrun.mono fun _ _ _ h => ⟨h.1.2, h.2⟩)
    (ownsSlice_child hsplit hf).isTask
  -- the reaping
  have hreap : (s₃.task s.rq.curr).timeSlice =
      (s₂.task f.child).reapSlice (s₂.task s.rq.curr) := by
    have hsched := schedExit_curr_sched hexit
    rw [current, hcurr] at hsched
    exact congrArg TaskSched.timeSlice hsched
  have hnonzero : (s₂.task f.child).firstTimeSlice ≠ 0 := by
    rw [hchild₂.firstTimeSlice, hfirst]
    decide
  have htotal : (s₂.task s.rq.curr).timeSlice.toNat + (s₂.task f.child).timeSlice.toNat =
      s.current.timeSlice.toNat := by
    rw [hparent₂.timeSlice, hchild₂.timeSlice, hslice, hchild]
    omega
  have hnew := toNat_reapSlice (t := s₂.task s.rq.curr) hnonzero (by omega)
  rw [← hreap] at hnew
  rcases hparent with ⟨hshort, -⟩ | ⟨-, -, hle⟩
  · rw [← Int.ofNat_le, hnew]
    refine ⟨fun h => .inr ?_, fun h => ?_⟩
    · omega
    · have hle := h.resolve_left (not_not.mpr hshort)
      omega
  · refine ⟨fun _ => .inr hle, fun _ => ?_⟩
    omega

/-- **Forking and reaping at once** gives the parent its slice back up to `MAX_TIMESLICE`, which
is all of it unless the parent is SHORT and has more. -/
theorem reaped_slice_ge_iff {cloneFlags : UInt32} {env : ForkEnv} {ops ops' : List Op}
    (hparent : s.current.ShortTask ∧ 2 ≤ s.current.timeSlice.toNat ∨
      (s.current.policy = .other ∨ s.current.policy = .rr) ∧ 2 ≤ s.current.timeSlice.toNat ∧
        (s.current.timeSlice.toNat : ℤ) ≤ maxTimeslice)
    (htask : s.IsTask s.rq.curr) (hfork : Step s (.doFork cloneFlags env) s₁)
    (hnot : ¬s.ForkRefused cloneFlags env)
    (hwindow : Run (Guarded (LeavesTime s.rq.curr) Step) s₁ ops s₂)
    (hsplit : Step s₂ .doForkSplit s₃)
    (hrun : Run (Guarded (fun t op => LeavesTime s.rq.curr t op ∧ LeavesTime env.child t op) Step)
      s₃ ops' s₄)
    (hexit : Step s₄ (.schedExit env.child) s₅) (hcurr : s₄.rq.curr = s.rq.curr) :
    s.current.timeSlice.toNat ≤ (s₅.task s.rq.curr).timeSlice.toNat ↔
      ¬s.current.ShortTask ∨ (s.current.timeSlice.toNat : ℤ) ≤ maxTimeslice := by
  have hcopied := doFork_step hfork hnot
  have hcurr₁ : s₁.rq.curr = s.rq.curr := by rw [hcopied]; rfl
  have hforking₁ : s₁.forking = some ⟨env.child, cloneFlags, false⟩ := by rw [hcopied]; rfl
  have htask₁ : s₁.IsTask s.rq.curr := isTask_step hfork nofun htask
  -- the parent is the same at the split
  obtain ⟨hcurr₂, hforking₂⟩ := inFork_of_run hwindow hcurr₁ hforking₁ rfl
  have htask₂ : s₂.IsTask s.rq.curr :=
    hwindow.invariant (P := fun s' => s'.IsTask s.rq.curr)
      (fun _ _ _ h hstep => hstep.1.isTask hstep.2 h) htask₁
  have hsame : SameTime s.current.toTaskSched s₂.current.toTaskSched := by
    have hwindow' := sameTime_of_run hwindow htask₁
    have hold : s₁.task s.rq.curr = s.current := by
      rw [hcopied]
      exact copied_current hfork.1.2.ne_curr
    rw [hold] at hwindow'
    show SameTime _ (s₂.task s₂.rq.curr).toTaskSched
    rwa [hcurr₂]
  have hiff := split_reaped_iff (SharesFairly.congr hparent hsame) (hcurr₂ ▸ htask₂) hforking₂
    hsplit (hcurr₂ ▸ hrun) hexit (hcurr.trans hcurr₂.symm)
  rwa [hsame.timeSlice, hsame.shortTask_iff, hcurr₂] at hiff

/-- A SHORT task with 40 of its 40 jiffies left, at `HZ` = 100. -/
def shortWithForty : Sys :=
  let task : Task :=
    { timeSlice := 40, pid := 1, policy := .short, requestedTime := 40, iWasShort := 1,
      array := some .shortArrays0 }
  ofList [task] 1

omit [Param] in
/-- Its child exits at once; the parent is left with 30 jiffies. -/
theorem short_parent_loses_slice :
    (shortWithForty.current.ShortTask ∧ shortWithForty.current.timeSlice = 40) ∧
    ∃ s₁ s₂ s₃, @Run Sys Op (@Step hz100) shortWithForty [.doFork 0 ⟨2, 2, 0⟩, .doForkSplit] s₁ ∧
      Run (Guarded (fun t op => LeavesTime 1 t op ∧ LeavesTime 2 t op) (@Step hz100)) s₁
        [.doForkWake, .setCurrentState .interruptible, .schedule, .doExit 1, .tryToWakeUp 1 false,
          .schedule] s₂ ∧
      s₂.rq.curr = 1 ∧ @Step hz100 s₂ (.schedExit 2) s₃ ∧ (s₃.task 1).timeSlice = 30 := by
  let fork : List Op := [.doFork 0 ⟨2, 2, 0⟩, .doForkSplit]
  let between : List Op := [.doForkWake, .setCurrentState .interruptible, .schedule, .doExit 1,
    .tryToWakeUp 1 false, .schedule]
  let G : Sys → Op → Prop := fun t op => LeavesTime 1 t op ∧ LeavesTime 2 t op
  have hfork : (@runOps hz100 fork shortWithForty).isSome = true := by decide +kernel
  have hall : ((@runOps hz100 fork shortWithForty >>= @runIf hz100 G _ between).map fun s =>
      (s.rq.curr, (@runOps hz100 [.schedExit 2] s).map fun s => (s.task 1).timeSlice)) =
        some (1, some 30) := by
    decide +kernel
  obtain ⟨s₁, hs₁⟩ := Option.isSome_iff_exists.mp hfork
  rw [hs₁] at hall
  obtain ⟨s₂, hs₂, hval⟩ := Option.map_eq_some_iff.mp hall
  obtain ⟨hcurr, hexit⟩ := Prod.mk.inj hval
  obtain ⟨s₃, hs₃, hslice⟩ := Option.map_eq_some_iff.mp hexit
  exact ⟨by decide, s₁, s₂, s₃, (@run_iff_runOps hz100 _ _ _).mpr hs₁,
    (@guarded_run_iff_runIf hz100 _ _ _ _ _).mpr hs₂, hcurr, (@runOps_single hz100 _ _ _).mp hs₃,
    hslice⟩

omit [Param] in
/-- An OTHER parent with 15 jiffies has them again. -/
theorem reaped_slice_ge_fifteen :
    let between : List Op := [.doForkWake, .setCurrentState .interruptible, .schedule, .doExit 1,
      .tryToWakeUp 1 false, .schedule]
    ∃ s₁ s₂ s₃ s₄, @Step hz100 privilegedTask (.doFork 0 ⟨2, 2, 0⟩) s₁ ∧
      @Step hz100 s₁ .doForkSplit s₂ ∧ @Run Sys Op (@Step hz100) s₂ between s₃ ∧
      @Step hz100 s₃ (.schedExit 2) s₄ ∧ 15 ≤ (s₄.task 1).timeSlice.toNat := by
  intro between
  let fork : List Op := [.doFork 0 ⟨2, 2, 0⟩, .doForkSplit]
  let G : Sys → Op → Prop := fun t op => LeavesTime 1 t op ∧ LeavesTime 2 t op
  have hfork : (@runOps hz100 fork privilegedTask).isSome = true := by decide +kernel
  have hall : ((@runOps hz100 fork privilegedTask >>= @runIf hz100 G _ between).map fun s =>
      (s.rq.curr, (@runOps hz100 [.schedExit 2] s).isSome)) = some (1, true) := by
    decide +kernel
  obtain ⟨s₂, hs₂⟩ := Option.isSome_iff_exists.mp hfork
  rw [hs₂] at hall
  obtain ⟨s₃, hs₃, hval⟩ := Option.map_eq_some_iff.mp hall
  obtain ⟨hcurr, hexit⟩ := Prod.mk.inj hval
  obtain ⟨s₄, hs₄⟩ := Option.isSome_iff_exists.mp hexit
  obtain ⟨s₁, hcopy, hrest⟩ := Run.cons_iff.mp ((@run_iff_runOps hz100 _ _ _).mpr hs₂)
  have hsplit := Run.single_iff.mp hrest
  have hrun := (@guarded_run_iff_runIf hz100 _ _ _ _ _).mpr hs₃
  have hreap := (@runOps_single hz100 _ _ _).mp hs₄
  refine ⟨s₁, s₂, s₃, s₄, hcopy, hsplit, hrun.mono fun _ _ _ h => h.2, hreap, ?_⟩
  exact (@reaped_slice_ge_iff hz100 privilegedTask s₁ s₁ s₂ s₃ s₄ 0 ⟨2, 2, 0⟩ [] between
    (.inr (by decide +kernel)) (.inl (by decide)) hcopy (by decide) (Run.nil _) hsplit hrun hreap
    hcurr).mpr (.inl (by decide))

end ShortSched
