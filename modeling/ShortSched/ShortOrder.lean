import ShortSched.Links
import ShortSched.RunqueueRuns
import ShortSched.SchedulingOrder

/-!
# SHORT tasks in the order of their nice values

`effective_prio` gives a SHORT task the priority `static_prio`. Three steps leave it with another
one: `activate_task` recomputes the priority only of a task that has slept for some jiffies, so
that a stale one survives a wake-up and the way into `rt_short` in `setscheduler`, and
`sys_sched_yield` moves a task that is alone on its level down to the next one.
-/

namespace ShortSched

open General

namespace Sys

/-- Every queued SHORT task has the priority that `effective_prio` gives it. -/
def ShortPrios (s : Sys) : Prop :=
  ∀ t, (s.task t).array ≠ none → (s.task t).ShortTask → (s.task t).prio = (s.task t).staticPrio

/-- The same for the tasks that `schedule` leaves queued. -/
def AwakePrios (s : Sys) : Prop :=
  ∀ t, (s.task t).array ≠ none → (s.task t).ShortTask →
    ¬(t = s.rq.curr ∧ s.current.GoesToSleep) → (s.task t).prio = (s.task t).staticPrio

/-- `t` has slept for zero jiffies and its priority is not `static_prio`. -/
abbrev Stale (s : Sys) (t : TaskId) : Prop :=
  s.jiffies = (s.task t).sleepTimestamp ∧ (s.task t).prio ≠ (s.task t).staticPrio

/-- `current` is a SHORT task alone on its level of `rt_short`, with no task above and one
below. -/
structure YieldsDown (s : Sys) : Prop where
  short : s.current.ShortTask
  stays : ¬s.current.GoesToSleep
  alone : ∀ t ∈ s.queue s.rq.rtShort s.current.prio, t = s.rq.curr
  above : ∀ prio, 0 ≤ prio → prio < s.current.prio → s.queue s.rq.rtShort prio = []
  below : ∃ prio, s.current.prio < prio ∧ prio < maxPrio ∧ s.queue s.rq.rtShort prio ≠ []

variable [Param]

/-- A request that makes the queued OTHER task `t` SHORT. -/
structure MakesQueuedShort (s : Sys) (pid policy : ℤ) (param : UserParam) (t : TaskId) : Prop where
  target : ∃ lp, Target s pid param t lp ∧ lp.requestedTime ≤ 3000 ∧
    minRequestedTime ≤ changeMsToJiffis lp.requestedTime
  may : s.MayShorten t
  policy : 0 ≤ policy ∧ Policy.ofInt? policy = some .short
  other : (s.task t).OtherTask
  queued : (s.task t).array ≠ none

/-- The steps after which a queued SHORT task has a wrong priority. -/
def LeavesStale (s : Sys) : Op → Prop
  | .tryToWakeUp p _ => (s.task p).array = none ∧ (s.task p).ShortTask ∧ s.Stale p
  | .setscheduler pid policy param => ∃ t, s.MakesQueuedShort pid policy param t ∧ s.Stale t
  | .sysSchedYield => s.YieldsDown
  | _ => False

end Sys

open Sys

variable [Param] {s s' : Sys} {op : Op} {t : TaskId}

/-! ## One task -/

theorem Task.effectivePrio_short {u : Task} (h : u.ShortTask) : u.effectivePrio = u.staticPrio :=
  if_pos h

/-- The bonus of a SHORT task is its static priority, if it gets one. -/
theorem Task.woken_prio_short {u : Task} (hshort : u.ShortTask) (hok : TaskOk u.toTaskSched)
    (jiffies : UInt32) : (u.woken jiffies).prio =
      if jiffies = u.sleepTimestamp then u.prio else u.staticPrio := by
  have hrt : ¬u.RtTask := hok.not_rtTask (.inr hshort.1)
  have hzero : jiffies - u.sleepTimestamp = 0 ↔ jiffies = u.sleepTimestamp := by
    rw [UInt32.sub_eq_iff_eq_add, UInt32.zero_add]
  unfold Task.woken
  by_cases hslept : jiffies = u.sleepTimestamp
  · rw [if_neg fun hc => hc.2 (hzero.mpr hslept), if_pos hslept]
  · rw [if_pos ⟨hrt, mt hzero.mp hslept⟩, if_neg hslept]
    simp only [Task.creditSleep]
    split <;> exact Task.effectivePrio_short hshort

omit [Param] in
theorem TaskSched.renice_prio {p : TaskSched} (hshort : p.ShortTask) (hok : TaskOk p)
    (hprio : p.prio = p.staticPrio) (nice : ℤ) :
    (p.renice nice).prio = (p.renice nice).staticPrio := by
  have hrt : ¬p.RtTask := hok.not_rtTask (.inr hshort.1)
  have hover : ¬p.OverdueTask := fun hc => absurd (hshort.2.symm.trans hc.2) (by decide)
  simp only [renice, if_neg hrt, if_neg hover]
  split
  · exact hprio
  split
  · exact hprio
  · rfl

/-! ## Which tasks are queued -/

/-- With no flag raised `setscheduler` queues no task and takes none off. -/
theorem setscheduler_queued {pid policy : ℤ} {param : UserParam} {r : ℤ} (hflags : s.NoFlags)
    (h : s.setscheduler pid policy param = some (r, s')) (t : TaskId) :
    (s'.task t).array = none ↔ (s.task t).array = none := by
  cases SetschedCase.of_eq_some h with
  | refused _ hsame => rw [hsame.sameTasks.array]
  | adjusted =>
    rw [(SameTasks.setTskNeedResched _ _).array, modify_proj (fun t => t.array) rfl]
  | @madeShort p lp =>
    rw [(SameTasks.setTskNeedResched _ _).array,
      (requeued_frame (f := Task.makeShort lp) (fun _ => rfl) (hflags t)
        (fun _ => ⟨rfl, rfl, rfl, rfl⟩) p).1]
    split
    · next ht => rw [ht, Option.map_eq_none_iff]
    · rfl
  | @changed p lp policy' s₁ _ _ _ _ _ hsame =>
    rw [(requeued_frame (f := Task.setPolicy policy' lp) (fun _ => rfl)
      (hflags.sameTasks hsame.sameTasks t) (fun _ => ⟨rfl, rfl, rfl, rfl⟩) p).1]
    split
    · next ht => rw [ht, Option.map_eq_none_iff, hsame.sameTasks.array]
    · rw [hsame.sameTasks.array]

/-- The scheduler queues a task only when it wakes it. -/
theorem queued_of_step (hinv : s.RqInv) (hflags : s.NoFlags) (hop : op.InScheduler)
    (hstep : Step s op s') (hqueued : (s'.task t).array ≠ none) :
    (s.task t).array ≠ none ∨ ∃ sync, op = .tryToWakeUp t sync := by
  have hlinks := step_links hstep t
  obtain ⟨-, hexec⟩ := hstep
  cases hlinks with
  | kept _ hkept =>
    left
    rwa [← hkept.array]
  | unlinked _ _ hunlinked => exact absurd hunlinked.array hqueued
  | woken sync => exact .inr ⟨sync, rfl⟩
  | forkWoken => exact absurd hop id
  | pulled _ hflag => exact absurd (hflags t) hflag
  | yielded _ harray =>
    left
    rw [harray]
    exact Option.some_ne_none _
  | ticked _ ht htick =>
    left
    rcases htick with rfl | ⟨_, _, rfl⟩
    swap
    · exact absurd hop id
    obtain rfl := Option.some.inj hexec
    subst ht
    rcases hinv.curr with hidle | hcurr
    · rwa [schedulerTick, if_pos hidle] at hqueued
    · exact hcurr
  | reniced nice =>
    obtain rfl := Option.some.inj hexec
    have hpulled : t ∉ s.pulled t := fun ht => justGotForked_of_mem_pulled ht (hflags t)
    rw [(setUserNice_frame t t nice s hpulled).1] at hqueued
    exact .inl hqueued
  | requeued =>
    obtain ⟨r, hr, rfl⟩ := Option.map_eq_some_iff.mp hexec
    exact .inl (mt (setscheduler_queued hflags hr t).mpr hqueued)

/-! ## A yield -/

omit [Param] in
/-- A yield of a SHORT task that changes its priority takes it down to a lower level. -/
theorem yieldsDown_of_prio (hinv : s.RqInv) (hne : s.rq.curr ≠ s.rq.idle)
    (hshort : s.current.ShortTask) (hstays : ¬s.current.GoesToSleep)
    (hprio : s.yieldPrio s.rq.curr s.rq.rtShort ≠ s.current.prio) : s.YieldsDown := by
  have hlayout := hinv.layout
  have hok := (hinv.tasks _ hne).ok
  have hrange := hok.range
  -- a level has its bit set if it has a task
  have hbit : ∀ prio, 0 ≤ prio → prio < maxPrio →
      ((s.rq.arrays s.rq.rtShort).bitmap prio = true ↔ s.queue s.rq.rtShort prio ≠ []) :=
    fun prio h0 hmax => hlayout.bitmap s.rq.rtShort (_, prio) (mem_levels.mpr ⟨rfl, h0, hmax⟩)
  unfold yieldPrio at hprio
  dsimp only at hprio
  split at hprio
  · exact absurd rfl hprio
  next halone =>
  split at hprio
  · exact absurd rfl hprio
  next hdown =>
  set bitmap := Function.update (s.rq.arrays s.rq.rtShort).bitmap s.current.prio false with hbitmap
  obtain ⟨hge, hle, hlow, hset⟩ := findBit_spec bitmap 0 140
  obtain ⟨hmax, hgt⟩ := not_or.mp hdown
  have hfirst : schedFindFirstBit bitmap = findBit bitmap 0 140 := rfl
  rw [← hfirst] at hge hle hlow hset
  have hmax' : schedFindFirstBit bitmap < 140 := by
    simp only [maxPrio, maxRtPrio, maxUserRtPrio] at hmax
    omega
  refine ⟨hshort, hstays, fun t ht => ?_, fun prio h0 hlt => ?_,
    ⟨schedFindFirstBit bitmap, not_le.mp hgt, ?_, ?_⟩⟩
  · by_contra hc
    have hmem : t ∈ remove s.rq.curr s.queues (s.rq.rtShort, s.current.prio) :=
      mem_remove.mpr ⟨hc, ht⟩
    exact halone (.inr (List.ne_nil_of_mem hmem))
  · -- no bit above the one that was found
    have hclear := hlow prio h0 (hlt.trans (not_le.mp hgt))
    rw [hbitmap, Function.update_of_ne hlt.ne] at hclear
    by_contra hc
    rw [(hbit prio h0 (hlt.trans hrange.2)).mpr hc] at hclear
    cases hclear
  · simp only [maxPrio, maxRtPrio, maxUserRtPrio]
    omega
  · have hfound := hset (by omega)
    rw [hbitmap, Function.update_of_ne (not_le.mp hgt).ne'] at hfound
    refine (hbit _ hge ?_).mp hfound
    simp only [maxPrio, maxRtPrio, maxUserRtPrio]
    omega

/-! ## What `schedule` runs -/

/-- If a SHORT task is queued, then `current` is real-time or a SHORT task with the lowest
`static_prio`. -/
def RunsLowest (s : Sys) : Prop :=
  ∀ t, (s.task t).array ≠ none → (s.task t).ShortTask → s.current.array ≠ none ∧
    ((s.current.policy = .fifo ∨ s.current.policy = .rr) ∨
      s.current.ShortTask ∧ s.current.staticPrio ≤ (s.task t).staticPrio)

omit [Param] in
/-- Only `rt_short` has the first rank. -/
theorem arrayRank_eq_zero {q : RqPtrs} {array : Option PrioArrayPtr} (h : arrayRank q array = 0) :
    array = some q.rtShort := by
  cases array with
  | none => cases h
  | some array =>
    rcases q.array_cases array with rfl | rfl | rfl | rfl
    · rw [arrayRank_active] at h
      cases h
    · rw [arrayRank_expired] at h
      cases h
    · rfl
    · rw [arrayRank_overdue] at h
      cases h

omit [Param] in
/-- What `rt_short` holds. -/
theorem TaskInv.of_rtShort {q : RqPtrs} {u : Task} (h : TaskInv q u)
    (harray : u.array = some q.rtShort) :
    (u.policy = .fifo ∨ u.policy = .rr) ∨ u.ShortTask := by
  obtain ⟨-, -, -, hra, -, hro⟩ := ptrs_ne q
  obtain ⟨-, hre, -⟩ := ptrs_ne q
  have hfits := h.fits _ harray
  rcases TaskOk.policy_cases u.policy with hrt | hother | hshort
  · exact .inl hrt
  · rcases hfits.other hother with hc | hc
    · exact absurd hc hra
    · exact absurd hc hre
  · rcases h.ok.iAmOverdue_cases hshort with hs | ho
    · exact .inr hs
    · exact absurd (hfits.overdue ho) hro

omit [Param] in
theorem Sys.PassFrame.shortPrios (hframe : s.PassFrame s') (h : s.AwakePrios) : s'.ShortPrios := by
  intro t hqueued hshort
  rw [hframe.sched] at hshort ⊢
  rw [hframe.array] at hqueued
  split at hqueued
  · exact absurd rfl hqueued
  · next hawake => exact h t hqueued hshort hawake

omit [Param] in
/-- A pass of `schedule` runs a SHORT task with the lowest `static_prio`. -/
theorem Sys.PassTo.runsLowest {next : TaskId} {s₁ : Sys} (hpass : s.PassTo next s' s₁)
    (hinv : s.RqInv) (h : s.AwakePrios) : RunsLowest s' := by
  have hframe := schedulePass_frame hpass.pass
  have hbegin := deactivatePrev_frame hpass.deactivate
  have hinv' := hinv.schedulePass hpass.pass
  -- the tasks are the same in the state from which the next one is picked
  have harray : ∀ u, (s₁.task u).array = (s'.task u).array := fun u => by
    rw [hbegin.array, hframe.array]
  have hprio : ∀ u, (s₁.task u).prio = (s'.task u).prio := fun u => by
    rw [hbegin.sched, hframe.sched]
  have hqueues : s₁.queues = s'.queues := by rw [hbegin.queues, hframe.queues]
  have hrtShort : s₁.rq.rtShort = s'.rq.rtShort := by
    rw [hbegin.ptrs.rtShort, hframe.ptrs.rtShort]
  have hprios := hframe.shortPrios h
  intro t hqueued hshort
  have hidle : ∀ {u}, (s'.task u).array ≠ none → u ≠ s'.rq.idle := by
    rintro u hu rfl
    exact hu hinv'.idle_array
  obtain ⟨array, ht⟩ := Option.ne_none_iff_exists'.mp hqueued
  obtain rfl := ((hinv'.tasks t (hidle hqueued)).fits array ht).short hshort
  have hne : next ≠ s₁.rq.idle := by
    intro hc
    have hempty : s'.queues (s'.rq.rtShort, (s'.task t).prio) = [] := by
      rw [← hqueues]
      exact hpass.picks.idle_iff.mp hc _ _
    exact List.ne_nil_of_mem (hinv'.layout.mem_queue.mpr ⟨ht, rfl⟩) hempty
  -- `next` is not behind `t` in the order of `schedule`
  have hkey : s₁.schedKey next ≤ s₁.schedKey t := by
    have hbest := (hpass.picks.best hne).least t (by rw [harray]; exact hqueued)
    rw [schedRank, schedRank, Prod.Lex.toLex_le_toLex] at hbest
    rcases hbest with hlt | ⟨heq, -⟩
    · exact hlt.le
    · exact heq.le
  rw [schedKey, schedKey, Prod.Lex.toLex_le_toLex, harray, harray, hprio, hprio, ht, ← hrtShort,
    arrayRank_rtShort] at hkey
  rcases hkey with hlt | ⟨hrank, hle⟩
  · exact absurd hlt (Nat.not_lt_zero _)
  have hnext := arrayRank_eq_zero hrank
  rw [hrtShort, ← hpass.curr] at hnext
  rw [← hpass.curr] at hle
  have hcurr : s'.current.array ≠ none := by
    rw [hnext]
    exact Option.some_ne_none _
  refine ⟨hcurr, ((hinv'.tasks _ (hidle hcurr)).of_rtShort hnext).imp_right fun hs => ⟨hs, ?_⟩⟩
  rw [← hprios _ hcurr hs, ← hprios t hqueued hshort]
  exact hle

omit [Param] in
theorem Sys.ShortPrios.awake (h : s.ShortPrios) : s.AwakePrios := fun t hqueued hshort _ =>
  h t hqueued hshort

omit [Param] in
/-- So does a call, whose last pass is one of these. -/
theorem Sys.AwakePrios.schedule (h : s.AwakePrios) (hinv : s.RqInv)
    (hsched : s.schedule = some s') : s'.ShortPrios ∧ RunsLowest s' := by
  obtain ⟨nexts, hne, hrun⟩ := hinv.toRqAgree.passes hinv.idle_runs hsched
  clear hsched
  induction hrun with
  | nil => exact absurd rfl hne
  | @cons s s₂ s' next nexts step rest ih =>
    obtain ⟨s₁, hpass⟩ := step
    have hprios := (schedulePass_frame hpass.pass).shortPrios h
    cases rest with
    | nil => exact ⟨hprios, hpass.runsLowest hinv h⟩
    | cons step' rest' =>
      exact ih hprios.awake (hinv.schedulePass hpass.pass) (List.cons_ne_nil _ _)

omit [Param] in
/-- A yield that does not move a SHORT task down. -/
theorem Sys.ShortPrios.yieldRequeue (h : s.ShortPrios) (hinv : s.RqInv)
    (hne : s.rq.curr ≠ s.rq.idle) (hgood : ¬s.YieldsDown) (hyield : s.yieldRequeue = some s') :
    s'.AwakePrios := by
  obtain ⟨array, harray, hframe⟩ := yieldRequeue_eq_some hyield
  have hcurr : s'.rq.curr = s.rq.curr := by rw [hframe.ptrs]
  intro t hqueued hshort hawake
  rw [hframe.task] at hqueued hshort ⊢
  rw [current, hcurr, hframe.task, Function.update_self] at hawake
  by_cases ht : t = s.rq.curr
  swap
  · rw [Function.update_of_ne ht] at hqueued hshort ⊢
    exact h t hqueued hshort
  subst ht
  rw [Function.update_self] at hqueued hshort ⊢
  have hshort₀ : s.current.ShortTask := hshort
  have hstays : ¬s.current.GoesToSleep := fun hsleep => hawake ⟨rfl, hsleep⟩
  obtain rfl := ((hinv.tasks _ hne).fits array harray).short hshort₀
  show s.yieldPrio s.rq.curr s.rq.rtShort = s.current.staticPrio
  by_contra hstale
  rw [← h _ hqueued hshort₀] at hstale
  exact hgood (yieldsDown_of_prio hinv hne hshort₀ hstays hstale)

omit [Param] in
theorem Sys.ShortPrios.sysSchedYield (h : s.ShortPrios) (hinv : s.RqInv)
    (hne : s.rq.curr ≠ s.rq.idle) (hgood : ¬s.YieldsDown) (hyield : s.sysSchedYield = some s') :
    s'.ShortPrios ∧ RunsLowest s' := by
  unfold Sys.sysSchedYield at hyield
  simp only [Option.bind_eq_bind, Option.bind_eq_some_iff] at hyield
  obtain ⟨s₁, hyield, hsched⟩ := hyield
  exact (h.yieldRequeue hinv hne hgood hyield).schedule (hinv.yieldRequeue hne hyield) hsched

/-! ## Steps -/

/-- What a step that leaves no stale priority preserves. -/
theorem Sys.ShortPrios.step (h : s.ShortPrios) (hinv : s.RqInv) (hflags : s.NoFlags)
    (hop : op.InScheduler) (hstep : Step s op s') (hgood : ¬s.LeavesStale op) :
    s'.ShortPrios := by
  by_cases hyields : op = .sysSchedYield
  · subst hyields
    exact (h.sysSchedYield hinv hstep.1.2 hgood hstep.2).1
  intro t hqueued hshort
  have hinv' := (RqInv.step_inScheduler ⟨hinv, hflags⟩ hop hstep).1
  have hidle : t ≠ s.rq.idle := by
    rintro rfl
    rw [← step_idle hstep] at hqueued
    exact hqueued hinv'.idle_array
  have hok := (hinv.tasks t hidle).ok
  by_cases hwake : ∃ sync, op = .tryToWakeUp t sync ∧ (s.task t).array = none
  · obtain ⟨sync, rfl, hasleep⟩ := hwake
    obtain rfl := Option.some.inj hstep.2
    rw [tryToWakeUp_sched, if_pos ⟨rfl, hasleep⟩] at hshort ⊢
    have hwoken := Task.woken_sched s.jiffies (s.task t)
    have hshort₀ : (s.task t).ShortTask := by
      rw [hwoken] at hshort
      exact hshort
    have hstatic : ((s.task t).woken s.jiffies).staticPrio = (s.task t).staticPrio := by
      rw [hwoken]
    rw [hstatic, Task.woken_prio_short hshort₀ hok]
    split
    · next hslept =>
      by_contra hstale
      exact hgood ⟨hasleep, hshort₀, hslept, hstale⟩
    · rfl
  -- any other SHORT task was queued before
  have hqueued₀ : (s.task t).array ≠ none := by
    rcases queued_of_step hinv hflags hop hstep hqueued with h₀ | ⟨sync, hop⟩
    · exact h₀
    · exact fun hc => hwake ⟨sync, hop, hc⟩
  have hsched := step_sched hstep t
  generalize (s'.task t).toTaskSched = p' at hsched hshort ⊢
  cases hsched with
  | same => exact h t hqueued₀ hshort
  | woken _ hasleep => exact absurd hasleep hqueued₀
  | tick =>
    obtain ⟨hshort₀, hprio, hstatic⟩ := Task.afterTick_short hshort
    rw [hprio, hstatic]
    exact h t hqueued₀ hshort₀
  | renice nice =>
    obtain ⟨hpolicy, hover⟩ := (s.task t).renice_class nice
    have hshort₀ : (s.task t).ShortTask :=
      ⟨hpolicy.symm.trans hshort.1, hover.symm.trans hshort.2⟩
    exact TaskSched.renice_prio hshort₀ hok (h t hqueued₀ hshort₀) nice
  | adjust => exact h t hqueued₀ hshort
  | @make pid policy param lp target hother hpolicy hle hge hmay =>
    rw [if_neg hqueued₀] at hshort ⊢
    have hwoken := Task.woken_sched s.jiffies ((s.task t).makeShort lp)
    have hshort₀ : ((s.task t).makeShort lp).ShortTask := by
      rw [hwoken] at hshort
      exact hshort
    have hstatic : (((s.task t).makeShort lp).woken s.jiffies).staticPrio =
        (s.task t).staticPrio := by
      rw [hwoken]
      rfl
    rw [hstatic, Task.woken_prio_short hshort₀ (hok.makeShort hother lp)]
    split
    · next hslept =>
      by_contra hstale
      exact hgood ⟨t, ⟨⟨lp, target, hle, hge⟩, hmay, hpolicy, hother, hqueued₀⟩, hslept, hstale⟩
    · rfl
  | setPolicy _ _ hnew =>
    refine absurd ?_ hnew
    split at hshort
    · exact hshort.1
    · rw [Task.woken_sched] at hshort
      exact hshort.1
  | yield => exact absurd rfl hyields
  | forkCopy | forkSlice | forkExpired | forkTick | forkChild | forkWoken | reap =>
    exact absurd hop not_false

/-- **SHORT tasks are ordered by their nice values** in every run in which no step leaves a stale
priority: every queued SHORT task has the priority `static_prio`, and `schedule`, which
`sys_sched_yield` calls as well, runs one with the lowest `static_prio`. -/
theorem shortPrios_of_run {ops : List Op} (hinv : s.RqInv) (hflags : s.NoFlags)
    (h : s.ShortPrios) (hops : ∀ op ∈ ops, op.InScheduler)
    (hrun : Run (Guarded (fun s op => ¬s.LeavesStale op) Step) s ops s') :
    s'.ShortPrios ∧ (∀ s'', Step s' .schedule s'' → RunsLowest s'') ∧
      ∀ s'', Step s' .sysSchedYield s'' → ¬s'.LeavesStale .sysSchedYield → RunsLowest s'' := by
  have hend : s'.RqInv ∧ s'.NoFlags ∧ s'.ShortPrios := by
    induction hrun with
    | nil => exact ⟨hinv, hflags, h⟩
    | cons hguarded _ ih =>
      obtain ⟨hgood, hstep⟩ := hguarded
      have hop := hops _ List.mem_cons_self
      have hnext := RqInv.step_inScheduler ⟨hinv, hflags⟩ hop hstep
      exact ih hnext.1 hnext.2 (h.step hinv hflags hop hstep hgood)
        fun op hop => hops op (List.mem_cons_of_mem _ hop)
  obtain ⟨hinv', -, hprios⟩ := hend
  refine ⟨hprios, fun s'' hstep => ?_, fun s'' hstep hgood => ?_⟩
  · exact (hprios.awake.schedule hinv' hstep.2).2
  · exact (hprios.sysSchedYield hinv' hstep.1.2 hgood hstep.2).2

/-! ## Two runs -/

omit [Param] in
theorem shortPrios_ofList {ts : List Task} {curr : TaskId}
    (htasks : ∀ u ∈ ts, u.ShortTask → u.prio = u.staticPrio) : (ofList ts curr).ShortPrios := by
  intro t hqueued hshort
  have ht : t ≠ 0 := by
    rintro rfl
    exact hqueued rfl
  rcases ofList_task ts curr ht with hmem | hsleeps
  · exact htasks _ hmem.1 hshort
  · rw [hsleeps] at hqueued
    exact absurd rfl hqueued

/-- An OTHER task with a bonus of 3 runs, and a SHORT task of nice -1 waits. -/
def bonusOfThree : Sys :=
  ofList [{ timeSlice := 15, pid := 1, prio := 117, array := some .arrays0 },
    { timeSlice := 100, pid := 2, policy := .short, requestedTime := 100, iWasShort := 1,
      prio := 119, staticPrio := 119, array := some .shortArrays0 }] 1

omit [Param] in
/-- The bonus is kept by the task that is made SHORT, and `schedule` runs it first. -/
theorem shortPrios_broken_by_setscheduler :
    bonusOfThree.RqInv ∧ bonusOfThree.NoFlags ∧ bonusOfThree.ShortPrios ∧
      ∃ s', @runOps hz100 [.setscheduler 0 5 (.valid ⟨0, 1000⟩), .schedule] bonusOfThree = some s' ∧
        ¬s'.ShortPrios ∧ ¬RunsLowest s' := by
  refine ⟨rqInv_ofList (by decide) (by decide), noFlags_ofList (by decide),
    shortPrios_ofList (by decide), ?_⟩
  let ops : List Op := [.setscheduler 0 5 (.valid ⟨0, 1000⟩), .schedule]
  have hresult : ((@runOps hz100 ops bonusOfThree).map fun s =>
      (s.rq.curr, (s.task 1).array, (s.task 1).toTaskSched, (s.task 2).array,
        (s.task 2).toTaskSched)) = some
      (1, some .shortArrays0, { (bonusOfThree.task 1).toTaskSched with
        policy := .short
        requestedTime := 100
        timeSlice := 100
        iWasShort := 1 }, some .shortArrays0, (bonusOfThree.task 2).toTaskSched) := by
    decide +kernel
  obtain ⟨s', hs', hfields⟩ := Option.map_eq_some_iff.mp hresult
  simp only [Prod.mk.injEq] at hfields
  obtain ⟨hcurr, harray₁, hsched₁, harray₂, hsched₂⟩ := hfields
  have hqueued₁ : (s'.task 1).array ≠ none := by
    rw [harray₁]
    exact Option.some_ne_none _
  have hqueued₂ : (s'.task 2).array ≠ none := by
    rw [harray₂]
    exact Option.some_ne_none _
  refine ⟨s', hs', fun h => ?_, fun h => ?_⟩
  · have hprio := h 1 hqueued₁
    rw [hsched₁] at hprio
    exact absurd (hprio ⟨rfl, rfl⟩) (by decide)
  · have hlowest := h 2 hqueued₂
    rw [current, hcurr, hsched₁, hsched₂] at hlowest
    exact absurd (hlowest ⟨rfl, rfl⟩).2 (by decide)

omit [Param] in
/-- Without a bonus the task has the right priority from the start. -/
theorem shortPrios_of_run_no_bonus :
    let ts : List Task := [{ timeSlice := 15, pid := 1, array := some .arrays0 }]
    let ops : List Op := [.setscheduler 0 5 (.valid ⟨0, 1000⟩), .schedulerTick, .setUserNice 1 5]
    ∃ s', @runOps hz100 ops (ofList ts 1) = some s' ∧ s'.ShortPrios := by
  intro ts ops
  have hruns : (@runOps hz100 ops (ofList ts 1)).isSome = true := by decide +kernel
  obtain ⟨s', hs'⟩ := Option.isSome_iff_exists.mp hruns
  obtain ⟨s₁, hfirst, hrest⟩ := Run.cons_iff.mp ((@run_iff_runOps hz100 _ _ _).mpr hs')
  have hgood : ¬@LeavesStale hz100 (ofList ts 1) (.setscheduler 0 5 (.valid ⟨0, 1000⟩)) := by
    rintro ⟨t, ⟨-, -, -, -, hqueued⟩, -, hprio⟩
    have ht : t ≠ 0 := by
      rintro rfl
      exact hqueued rfl
    rcases ofList_task ts 1 ht with hmem | hsleeps
    · rw [List.mem_singleton.mp hmem.1] at hprio
      exact hprio rfl
    · rw [hsleeps] at hqueued
      exact hqueued rfl
  have hguarded := Run.cons (R := Guarded (fun s op => ¬@LeavesStale hz100 s op) (@Step hz100))
    ⟨hgood, hfirst⟩ (hrest.guarded (by simp [LeavesStale]))
  exact ⟨s', hs', (@shortPrios_of_run hz100 _ _ _ (rqInv_ofList (by decide) (by decide))
    (noFlags_ofList (by decide)) (shortPrios_ofList (by decide)) (by decide) hguarded).1⟩

end ShortSched
