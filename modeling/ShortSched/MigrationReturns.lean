import Mathlib.Algebra.Order.BigOperators.Group.Finset
import ShortSched.AffinityRuns

/-!
# Calls of `set_cpus_allowed` return

No caller of `set_cpus_allowed` waits for a thread that sleeps. From every state that the tasks can
reach, the migration threads and the callers can bring every call to its end, with no task moved to
where it may not be, if the scheduler lets them: a task of the highest real-time priority that never
sleeps keeps all others of its CPU from running, migration threads included.
-/

namespace ShortSched

open General

/-- A step towards the end of the calls: no new call, no fork, and nobody goes to sleep. -/
def MigOp.Finishes : MigOp → Prop
  | schedule _ _ sleep => sleep = false
  | setCpusAllowed _ | wakeThread _ | down _ | migrationThread _ => True
  | _ => False

namespace TaskPc

/-- How far a caller is from the end of its call, with the count `sem` of its semaphore: an answer to
its request brings it one nearer. -/
def left (sem : ℕ) : TaskPc → ℕ
  | outside | forking _ => 0
  | setting _ _ => 5
  | requested _ _ => if sem = 0 then 4 else 3
  | waits _ _ => if sem = 0 then 2 else 1

/-- A caller with nothing left to do is outside. -/
theorem outside_or_forking_of_left {pc : TaskPc} {sem : ℕ} (h : pc.left sem = 0) :
    pc = .outside ∨ ∃ child, pc = .forking child := by
  cases pc with
  | outside => exact .inl rfl
  | forking child => exact .inr ⟨child, rfl⟩
  | setting p newMask => cases h
  | requested p rq | waits p rq =>
    simp only [left] at h
    split at h
    · cases h
    · cases h

/-- `up(&req->sem)` takes the caller nearer to the end. -/
theorem left_up {pc : TaskPc} {p : TaskId} {rq : ℕ} (h : pc.Asks p rq) : pc.left 1 < pc.left 0 := by
  cases pc with
  | requested | waits =>
    simp only [left]
    decide
  | outside | forking | setting => exact h.elim

end TaskPc

namespace MigSys

variable {s s' s₁ : MigSys} {c : ℕ} {p t : TaskId} {req : MigrationReq} {op : MigOp}
  {ops : List MigOp}

/-- The steps towards the end of the calls that leave every task where it may be. -/
abbrev FinishStep : MigSys → MigOp → MigSys → Prop :=
  Guarded (fun s op => op.Finishes ∧ MigSafe s op) SparingStep

/-- How far task `t` is from the end of its call. -/
def left (s : MigSys) (t : TaskId) : ℕ :=
  (s.pc t).left (s.sem t)

/-- Task `t` has come nearer to the end of its call, and no other task has gone on. -/
def Nearer (t : TaskId) (s s' : MigSys) : Prop :=
  (∀ t', t' ≠ t → s'.pc t' = s.pc t' ∧ s'.sem t' = s.sem t') ∧ s'.left t < s.left t

/-- Steps towards the end take some task nearer to the end. -/
def Advances (s : MigSys) : Prop :=
  ∃ t ops s', Run FinishStep s ops s' ∧ Nearer t s s'

theorem advances_of_step (step : FinishStep s op s') (h : Nearer t s s') : s.Advances :=
  ⟨t, [op], s', Run.single step, h⟩

/-- First a step in which no caller goes on. -/
theorem Advances.after (h : s₁.Advances) (step : FinishStep s op s₁) (hpc : s₁.pc = s.pc)
    (hsem : s₁.sem = s.sem) : s.Advances := by
  obtain ⟨t, ops, s', hrun, hothers, hlt⟩ := h
  refine ⟨t, op :: ops, s', Run.cons step hrun, fun t' ht' => ?_, ?_⟩
  · rw [← hpc, ← hsem]
    exact hothers t' ht'
  · have hleft : s₁.left t = s.left t := by rw [left, left, hpc, hsem]
    rwa [← hleft]

/-- The caller goes on to `pc`. -/
theorem nearer_goto {pc : TaskPc} (hpc : s₁.pc = s.pc) (hsem : ∀ t', t' ≠ t → s₁.sem t' = s.sem t')
    (hlt : pc.left (s₁.sem t) < s.left t) : Nearer t s (s₁.goto t pc) := by
  refine ⟨fun t' ht' => ⟨?_, hsem t' ht'⟩, ?_⟩
  · rw [goto_pc_of_ne ht', hpc]
  · rw [left, goto_pc_self]
    exact hlt

/-! ## A migration thread that has a request -/

/-- A step of the migration thread of CPU `c`, which runs. -/
theorem finishStep_migrationThread (hcurr : s.curr c = s.migrationThread c)
    (hawake : s.thread c ≠ .sleeps) :
    FinishStep s (.migrationThread c) (s.migrationThreadStep c) :=
  ⟨⟨trivial, trivial⟩, trivial, ⟨hcurr, hawake⟩, rfl⟩

/-- A migration thread that has a request runs. -/
theorem MigInv.finishStep_works (h : s.MigInv) (hreq : (s.thread c).req ≠ []) :
    FinishStep s (.migrationThread c) (s.migrationThreadStep c) := by
  refine finishStep_migrationThread (h.works c hreq) fun hsleeps => ?_
  rw [hsleeps] at hreq
  exact hreq rfl

/-- A thread that is awake and has no request is at the head of its loop. -/
theorem loop_of_awake (hnone : (s.thread c).req = []) (hawake : s.thread c ≠ .sleeps) :
    s.thread c = .loop := by
  cases hat : s.thread c with
  | loop => rfl
  | sleeps => exact absurd hat hawake
  | took | chosen | moved =>
    rw [hat] at hnone
    cases hnone

theorem migrationThreadStep_moved (hthread : s.thread c = .moved req) :
    s.migrationThreadStep c = (s.up req.caller).setThread c .loop := by
  rw [migrationThreadStep, hthread]

/-- The thread moves the task, wherever it is. -/
theorem migrationThreadStep_chosen {cpuDest : ℕ} (hthread : s.thread c = .chosen req cpuDest) :
    ∃ s₁ : MigSys, s₁.pc = s.pc ∧ s₁.sem = s.sem ∧
      s.migrationThreadStep c = s₁.setThread c (.moved req) := by
  rw [migrationThreadStep, hthread]
  refine ⟨_, ?_, ?_, rfl⟩
  · split
    · rfl
    · rfl
  · split
    · rfl
    · rfl

theorem migrationThreadStep_took (hthread : s.thread c = .took req) :
    s.migrationThreadStep c = s.setThread c (.chosen req (ffs (s.task req.task).cpusAllowed)) := by
  rw [migrationThreadStep, hthread]

theorem migrationThreadStep_loop {rest : List MigrationReq} (hthread : s.thread c = .loop)
    (hqueue : s.migrationQueue c = req :: rest) :
    s.migrationThreadStep c =
      { s with migrationQueue := Function.update s.migrationQueue c rest }.setThread c
        (.took req) := by
  simp only [migrationThreadStep, hthread, hqueue]

theorem migrationThreadStep_nil (hthread : s.thread c = .loop) (hqueue : s.migrationQueue c = []) :
    s.migrationThreadStep c = s.setThread c .sleeps := by
  simp only [migrationThreadStep, hthread, hqueue]

/-- **The last step of a request**: `up`. -/
theorem MigInv.advances_moved (h : s.MigInv) (hthread : s.thread c = .moved req) : s.Advances := by
  have step := h.finishStep_works (c := c) (by
    rw [hthread]
    exact List.cons_ne_nil _ _)
  rw [migrationThreadStep_moved hthread] at step
  -- the caller has waited for this
  have hreq : req ∈ s.pend c := by
    rw [pend, hthread]
    exact List.mem_cons_self
  obtain ⟨hasks, hzero⟩ := (h.req.pend_iff c req).mp hreq
  refine advances_of_step step ⟨fun t' ht' => ⟨rfl, Function.update_of_ne ht' ..⟩, ?_⟩
  have hsem : ((s.up req.caller).setThread c .loop).sem req.caller = 0 + 1 := by
    rw [← hzero]
    exact Function.update_self ..
  show (s.pc req.caller).left _ < (s.pc req.caller).left _
  rw [hsem, hzero]
  exact TaskPc.left_up hasks

/-- **The step before it**: the task is moved. -/
theorem MigInv.advances_chosen {cpuDest : ℕ} (h : s.MigInv)
    (hthread : s.thread c = .chosen req cpuDest) : s.Advances := by
  have step := h.finishStep_works (c := c) (by
    rw [hthread]
    exact List.cons_ne_nil _ _)
  obtain ⟨s₁, hpc, hsem, hnext⟩ := migrationThreadStep_chosen hthread
  rw [hnext] at step
  have hmoved : (s₁.setThread c (.moved req)).thread c = .moved req := Function.update_self ..
  exact ((migInv_step h step.2).advances_moved hmoved).after step hpc hsem

/-- **A request that was taken off the queue** gets its CPU. -/
theorem MigInv.advances_took (h : s.MigInv) (hthread : s.thread c = .took req) : s.Advances := by
  have step := h.finishStep_works (c := c) (by
    rw [hthread]
    exact List.cons_ne_nil _ _)
  rw [migrationThreadStep_took hthread] at step
  set cpuDest := ffs (s.task req.task).cpusAllowed
  have hchosen : (s.setThread c (.chosen req cpuDest)).thread c = .chosen req cpuDest :=
    Function.update_self ..
  exact ((migInv_step h step.2).advances_chosen hchosen).after step rfl rfl

/-- A migration thread that runs, with requests on its list. -/
theorem MigInv.advances_loop (h : s.MigInv) (hthread : s.thread c = .loop)
    (hcurr : s.curr c = s.migrationThread c) (hqueue : s.migrationQueue c ≠ []) : s.Advances := by
  have step := finishStep_migrationThread hcurr (by
    rw [hthread]
    exact ThreadPc.noConfusion)
  obtain ⟨req, rest, hcons⟩ := List.exists_cons_of_ne_nil hqueue
  rw [migrationThreadStep_loop hthread hcons] at step
  exact ((migInv_step h step.2).advances_took (Function.update_self ..)).after step rfl rfl

/-- A migration thread in the middle of its loop. -/
theorem MigInv.advances_works (h : s.MigInv) (hreq : (s.thread c).req ≠ []) : s.Advances := by
  cases hthread : s.thread c with
  | took req => exact h.advances_took hthread
  | chosen req cpuDest => exact h.advances_chosen hthread
  | moved req => exact h.advances_moved hthread
  | loop | sleeps =>
    rw [hthread] at hreq
    exact absurd rfl hreq

/-! ## A caller that does not sleep -/

/-- While no migration thread has read a mask, `set_cpus_allowed` may change it. -/
theorem MigInv.advances_setting {newMask : UInt32} (h : s.MigInv) (hmask : s.MaskInv)
    (hthreads : ∀ c, (s.thread c).req = []) (hpc : s.pc t = .setting p newMask) : s.Advances := by
  have hcurr : s.curr (s.task t).cpu = t := h.busy t (by
    rw [hpc]
    trivial)
  set c := (s.task t).cpu
  have hpc' : s.pc (s.curr c) = .setting p newMask := by rw [hcurr, hpc]
  -- the only step that is not always safe
  have hsafe : MigSafe s (.setCpusAllowed c) := by
    intro p newMask _ c' req cpuDest hat
    have hnone := hthreads c'
    rw [hat] at hnone
    cases hnone
  have step : FinishStep s (.setCpusAllowed c) (s.setCpusAllowed c) :=
    ⟨⟨trivial, hsafe⟩, trivial, ⟨p, newMask, hpc'⟩, rfl⟩
  refine advances_of_step (t := t) step ?_
  have hleft : s.left t = 5 := by
    rw [left, hpc]
    rfl
  obtain ⟨hnonzero, -⟩ := hmask.online_and hpc
  have hcases := ((setCpusAllowed_cases hpc').resolve_left fun hzero => hnonzero hzero.1).2
  rw [hcurr] at hcases
  rcases hcases with ⟨-, heq⟩ | ⟨-, -, -, heq⟩ | ⟨-, -, heq⟩
  · rw [heq]
    exact nearer_goto rfl (fun _ _ => rfl) (by
      rw [hleft]
      exact Nat.succ_pos _)
  · rw [heq]
    exact nearer_goto rfl (fun _ _ => rfl) (by
      rw [hleft]
      exact Nat.succ_pos _)
  · have hlt : (TaskPc.requested p (s.task p).cpu).left (Function.update s.sem t 0 t) <
        s.left t := by
      rw [hleft, Function.update_self]
      exact Nat.lt_succ_self 4
    rw [heq]
    exact nearer_goto rfl (fun t' ht' => Function.update_of_ne ht' ..) hlt

/-- A caller that has woken the thread goes on to `down`. -/
theorem wakeThread_requested {rq : ℕ} (hpc : s.pc (s.curr c) = .requested p rq) :
    ∃ s₁ : MigSys, s₁.pc = s.pc ∧ s₁.sem = s.sem ∧
      s.wakeThread c = s₁.goto (s.curr c) (.waits p rq) := by
  simp only [wakeThread, hpc]
  refine ⟨_, ?_, ?_, rfl⟩
  · split
    · rfl
    · rfl
  · split
    · rfl
    · rfl

/-- **A request that was posted** gets to the thread. -/
theorem MigInv.advances_requested {rq : ℕ} (h : s.MigInv) (hpc : s.pc t = .requested p rq) :
    s.Advances := by
  have hcurr : s.curr (s.task t).cpu = t := h.busy t (by
    rw [hpc]
    trivial)
  set c := (s.task t).cpu
  have hpc' : s.pc (s.curr c) = .requested p rq := by rw [hcurr, hpc]
  have step : FinishStep s (.wakeThread c) (s.wakeThread c) :=
    ⟨⟨trivial, trivial⟩, trivial, ⟨p, rq, hpc'⟩, rfl⟩
  refine advances_of_step (t := t) step ?_
  obtain ⟨s₁, hsame, hsem, hnext⟩ := wakeThread_requested hpc'
  rw [hnext, hcurr]
  refine nearer_goto hsame (fun t' _ => by rw [hsem]) ?_
  rw [hsem, left, hpc, TaskPc.left, TaskPc.left]
  split
  · decide
  · decide

/-! ## A caller in `down` -/

theorem advances_waits_curr {rq : ℕ} (hpc : s.pc (s.curr c) = .waits p rq)
    (hsem : s.sem (s.curr c) ≠ 0) : s.Advances := by
  have step : FinishStep s (.down c) (s.down c) :=
    ⟨⟨trivial, trivial⟩, trivial, ⟨⟨p, rq, hpc⟩, hsem⟩, rfl⟩
  refine advances_of_step step (nearer_goto rfl (fun t' ht' => Function.update_of_ne ht' ..) ?_)
  rw [left, hpc, TaskPc.left, TaskPc.left, if_neg hsem]
  decide

/-- The CPU of the caller may switch to it. -/
theorem MigInv.advances_waits_switch {rq : ℕ} (h : s.MigInv) (hpc : s.pc t = .waits p rq)
    (hsem : s.sem t ≠ 0) (hswitch : s.MaySwitch (s.task t).cpu) : s.Advances := by
  set c := (s.task t).cpu with hc
  have hord : s.Ordinary t := h.inside t (by
    rw [hpc]
    exact TaskPc.noConfusion)
  have htask : (s.schedule c t false).task t = s.task t := by
    rcases modify_task_cases (s.curr c) t (fun t => { t with queued := t.queued && !false }) s with
      ⟨heq, hat⟩ | ⟨-, hat⟩
    · refine hat.trans ?_
      rw [← heq, Bool.not_false, Bool.and_true]
    · exact hat
  have henabled : (MigOp.schedule c t false).Enabled s := by
    refine ⟨hswitch, by rw [htask], .inr (.inr ⟨hord, ?_⟩), fun hsleep => absurd hsleep (by decide)⟩
    rw [htask]
    exact h.woken t p rq hpc hsem
  have step : FinishStep s (.schedule c t false) (s.schedule c t false) :=
    ⟨⟨rfl, trivial⟩, trivial, henabled, rfl⟩
  have hcurr : (s.schedule c t false).curr c = t := Function.update_self ..
  -- then it returns from `down`
  have hwaits : (s.schedule c t false).pc ((s.schedule c t false).curr c) = .waits p rq := by
    rw [hcurr]
    exact hpc
  have hwoken : (s.schedule c t false).sem ((s.schedule c t false).curr c) ≠ 0 := by
    rw [hcurr]
    exact hsem
  exact (advances_waits_curr hwaits hwoken).after step rfl rfl

/-- No caller is on its way through the kernel: a CPU may switch unless its migration thread runs. -/
theorem maySwitch_of_not_busy (hbusy : ∀ t, ¬(s.pc t).Busy)
    (hthread : s.curr c = s.migrationThread c → s.thread c = .sleeps) : s.MaySwitch c := by
  refine ⟨fun p newMask hpc => ?_, fun p rq hpc => ?_, hthread⟩
  · refine hbusy (s.curr c) ?_
    rw [hpc]
    trivial
  · refine hbusy (s.curr c) ?_
    rw [hpc]
    trivial

/-- The caller has been answered. -/
theorem MigInv.advances_answered {rq : ℕ} (h : s.MigInv) (hthreads : ∀ c, (s.thread c).req = [])
    (hbusy : ∀ t, ¬(s.pc t).Busy) (hpc : s.pc t = .waits p rq) (hsem : s.sem t ≠ 0) :
    s.Advances := by
  set c := (s.task t).cpu with hc
  by_cases hthread : s.curr c = s.migrationThread c → s.thread c = .sleeps
  · exact h.advances_waits_switch hpc hsem (maySwitch_of_not_busy hbusy hthread)
  -- the migration thread of the CPU runs: it has a request, or goes to sleep
  obtain ⟨hcurr, hawake⟩ := Classical.not_imp.mp hthread
  have hloop : s.thread c = .loop := loop_of_awake (hthreads c) hawake
  by_cases hqueue : s.migrationQueue c = []
  · -- with an empty list it lets go of the CPU
    have step := finishStep_migrationThread hcurr hawake
    rw [migrationThreadStep_nil hloop hqueue] at step
    have hsleeps : (s.setThread c .sleeps).thread c = .sleeps := Function.update_self ..
    have hswitch : (s.setThread c .sleeps).MaySwitch c :=
      maySwitch_of_not_busy hbusy fun _ => hsleeps
    exact ((migInv_step h step.2).advances_waits_switch hpc hsem hswitch).after step rfl rfl
  · exact h.advances_loop hloop hcurr hqueue

/-- The migration thread has not seen the request: it is awake, as nobody is about to wake it. -/
theorem MigInv.advances_unanswered {rq : ℕ} (h : s.MigInv) (hthreads : ∀ c, (s.thread c).req = [])
    (hbusy : ∀ t, ¬(s.pc t).Busy) (hpc : s.pc t = .waits p rq) (hsem : s.sem t = 0) :
    s.Advances := by
  have hqueue : s.migrationQueue rq ≠ [] := by
    have hreq : ⟨t, p⟩ ∈ s.pend rq := (h.req.pend_iff rq ⟨t, p⟩).mpr
      ⟨by rw [hpc]; exact ⟨rfl, rfl⟩, hsem⟩
    rw [pend, hthreads, List.nil_append] at hreq
    exact List.ne_nil_of_mem hreq
  have hawake : s.thread rq ≠ .sleeps := (h.noticed rq hqueue).resolve_right (by
    rintro ⟨t', p', hpc'⟩
    refine hbusy t' ?_
    rw [hpc']
    trivial)
  have hloop : s.thread rq = .loop := loop_of_awake (hthreads rq) hawake
  by_cases hcurr : s.curr rq = s.migrationThread rq
  · exact h.advances_loop hloop hcurr hqueue
  have htask : ((s.schedule rq (s.migrationThread rq) false).task (s.migrationThread rq)).cpu =
      rq := by
    have hother : (s.schedule rq (s.migrationThread rq) false).task (s.migrationThread rq) =
        s.task (s.migrationThread rq) := modify_task_of_ne (Ne.symm hcurr)
          (fun t => { t with queued := t.queued && !false }) s
    rw [hother]
    exact h.thread_cpu rq
  have step : FinishStep s (.schedule rq (s.migrationThread rq) false)
      (s.schedule rq (s.migrationThread rq) false) :=
    ⟨⟨rfl, trivial⟩, trivial, ⟨maySwitch_of_not_busy hbusy fun heq => absurd heq hcurr, htask,
      .inr (.inl ⟨rfl, hawake⟩), fun hsleep => absurd hsleep (by decide)⟩, rfl⟩
  have hnext : (s.schedule rq (s.migrationThread rq) false).curr rq =
      (s.schedule rq (s.migrationThread rq) false).migrationThread rq := Function.update_self ..
  exact ((migInv_step h step.2).advances_loop hloop hnext hqueue).after step rfl rfl

/-! ## Nobody waits in vain -/

/-- A caller in `down` has been answered and is on a runqueue, or its request is with a migration
thread that is awake or that a task is about to wake, which runs. -/
def Attended (s : MigSys) : Prop :=
  ∀ t p rq, s.pc t = .waits p rq →
    s.sem t ≠ 0 ∧ (s.task t).queued = true ∨
      s.sem t = 0 ∧ ⟨t, p⟩ ∈ s.pend rq ∧
        (s.thread rq ≠ .sleeps ∨ ∃ t' p', s.pc t' = .requested p' rq ∧ s.curr (s.task t').cpu = t')

/-- **Whoever waits** has a thread that will come to it. -/
theorem MigInv.attended (h : s.MigInv) : s.Attended := by
  intro t p rq hpc
  by_cases hsem : s.sem t = 0
  swap
  · exact .inl ⟨hsem, h.woken t p rq hpc hsem⟩
  have hreq : ⟨t, p⟩ ∈ s.pend rq :=
    (h.req.pend_iff rq ⟨t, p⟩).mpr ⟨by rw [hpc]; exact ⟨rfl, rfl⟩, hsem⟩
  refine .inr ⟨hsem, hreq, ?_⟩
  rcases List.mem_append.mp hreq with htaken | hqueue
  · -- a thread that has taken a request does not sleep
    left
    intro hsleeps
    rw [hsleeps] at htaken
    cases htaken
  · refine (h.noticed rq (List.ne_nil_of_mem hqueue)).imp_right ?_
    rintro ⟨t', p', hpc'⟩
    refine ⟨t', p', hpc', h.busy t' ?_⟩
    rw [hpc']
    trivial

/-! ## Whole runs -/

/-- As long as a caller has not returned, some caller can come nearer to the end. -/
theorem MigInv.advances (h : s.MigInv) (hmask : s.MaskInv) (ht : s.left t ≠ 0) : s.Advances := by
  -- first the migration threads, so that no mask changes under one that has read it
  by_cases hthreads : ∃ c, (s.thread c).req ≠ []
  · obtain ⟨c, hreq⟩ := hthreads
    exact h.advances_works hreq
  simp only [not_exists, not_not] at hthreads
  by_cases hbusy : ∃ t, (s.pc t).Busy
  · obtain ⟨t, hbusy⟩ := hbusy
    cases hpc : s.pc t with
    | setting p newMask => exact h.advances_setting hmask hthreads hpc
    | requested p rq => exact h.advances_requested hpc
    | outside | forking | waits =>
      rw [hpc] at hbusy
      exact hbusy.elim
  simp only [not_exists] at hbusy
  cases hpc : s.pc t with
  | waits p rq =>
    by_cases hsem : s.sem t = 0
    · exact h.advances_unanswered hthreads hbusy hpc hsem
    · exact h.advances_answered hthreads hbusy hpc hsem
  | outside | forking =>
    rw [left, hpc] at ht
    exact absurd rfl ht
  | setting | requested =>
    have hnone := hbusy t
    rw [hpc] at hnone
    exact absurd trivial hnone

/-- The three invariants hold along every run of safe steps. -/
theorem invs_safeRun (hinv : s.MigInv) (hmask : s.MaskInv)
    (hrun : Run (Guarded MigSafe SparingStep) s ops s') :
    s'.MigInv ∧ s'.MaskInv ∧ (s.Affine → s'.Affine) := by
  induction hrun with
  | nil => exact ⟨hinv, hmask, id⟩
  | cons step _ ih =>
    obtain ⟨hinv', hmask', haffine'⟩ := ih (migInv_step hinv step.2) (maskInv_step hmask step.2.2)
    exact ⟨hinv', hmask', fun h => haffine' ((affine_step_iff hinv hmask h step.2).mpr step.1)⟩

theorem invs_finishRun (hinv : s.MigInv) (hmask : s.MaskInv) (hrun : Run FinishStep s ops s') :
    s'.MigInv ∧ s'.MaskInv ∧ (s.Affine → s'.Affine) :=
  invs_safeRun hinv hmask (hrun.mono fun _ _ _ step => ⟨step.1.2, step.2⟩)

/-- **Calls return.** Nobody waits for a thread that sleeps. If the scheduler lets any task run that
can, then from every state steps of the callers, of the scheduler and of the migration threads, without
a new call, a fork or a sleep, lead to a state in which all calls of `set_cpus_allowed` have returned
and all requests are answered. If every task was where it may be or left to a migration thread, then
each is on a CPU that it may use. -/
theorem exists_run_calls_return (hinv : s.MigInv) (hmask : s.MaskInv) :
    s.Attended ∧ ∃ ops s', Run FinishStep s ops s' ∧
      (∀ t, s'.pc t = .outside ∨ ∃ child, s'.pc t = .forking child) ∧ (∀ c, s'.pend c = []) ∧
      (s.Affine → ∀ p, s'.Ordinary p → MaskHas (s'.task p).cpusAllowed (s'.task p).cpu) := by
  -- the callers that have not returned; there will be no others
  obtain ⟨tasks, htasks⟩ := hinv.finite.exists_finset
  let Rest : MigSys → Prop := fun u => u.MigInv ∧ u.MaskInv ∧ ∀ t, t ∉ tasks → u.left t = 0
  have hrest : Rest s := by
    refine ⟨hinv, hmask, fun t ht => ?_⟩
    have hout : s.pc t = .outside := not_not.mp fun hinside => ht ((htasks t).mpr hinside)
    rw [left, hout]
    rfl
  have hstep : ∀ u, Rest u → ∑ t ∈ tasks, u.left t ≠ 0 → ∃ ops u', Run FinishStep u ops u' ∧
      Rest u' ∧ ∑ t ∈ tasks, u'.left t < ∑ t ∈ tasks, u.left t := by
    rintro u ⟨hi, hm, hout⟩ hpos
    obtain ⟨t₀, -, ht₀⟩ := Finset.exists_ne_zero_of_sum_ne_zero hpos
    obtain ⟨t, ops, u', hrun, hothers, hlt⟩ := hi.advances hm ht₀
    obtain ⟨hi', hm', -⟩ := invs_finishRun hi hm hrun
    have hsame : ∀ t', t' ≠ t → u'.left t' = u.left t' := by
      intro t' ht'
      rw [left, left, (hothers t' ht').1, (hothers t' ht').2]
    have ht : t ∈ tasks := by
      by_contra hnot
      rw [hout t hnot] at hlt
      exact absurd hlt (Nat.not_lt_zero _)
    refine ⟨ops, u', hrun, ⟨hi', hm', fun t' ht' => ?_⟩, Finset.sum_lt_sum (fun t' _ => ?_)
      ⟨t, ht, hlt⟩⟩
    · rw [hsame t' fun heq => ht' (heq ▸ ht)]
      exact hout t' ht'
    · by_cases heq : t' = t
      · rw [heq]
        exact hlt.le
      · rw [hsame t' heq]
  obtain ⟨ops, s', hrun, ⟨hi, hm, hout⟩, hzero⟩ := Run.exists_of_measure_run hstep hrest
  have hleft : ∀ t, s'.left t = 0 := by
    intro t
    by_cases ht : t ∈ tasks
    · exact Finset.sum_eq_zero_iff.mp hzero t ht
    · exact hout t ht
  have hpend : ∀ c, s'.pend c = [] := by
    intro c
    refine List.eq_nil_iff_forall_not_mem.mpr fun req hreq => ?_
    obtain ⟨hasks, hsem⟩ := (hi.req.pend_iff c req).mp hreq
    have hlt := TaskPc.left_up hasks
    have hzero := hleft req.caller
    rw [left, hsem] at hzero
    rw [hzero] at hlt
    exact absurd hlt (Nat.not_lt_zero _)
  refine ⟨hinv.attended, ops, s', hrun, fun t => TaskPc.outside_or_forking_of_left (hleft t), hpend,
    fun haffine p hp => ?_⟩
  have haffine' : s'.Affine := (invs_finishRun hinv hmask hrun).2.2 haffine
  refine (haffine'.placed p hp).resolve_right ?_
  rintro ⟨req, hreq, -⟩
  have hreq := mem_pend_of_unserved hreq
  rw [hpend] at hreq
  cases hreq

/-- Task 5 on CPU 1 has put a request for task 2 on the list of CPU 0. The migration thread sleeps. -/
theorem exists_run_calls_return_requested :
    let ops : List MigOp := [.schedule 1 5 false, .sysSchedSetaffinity 1 2 2, .setCpusAllowed 1]
    ∃ s, Run SparingStep (boot 0xff) ops s ∧ s.Attended ∧ s.pc 5 = .requested 2 0 ∧ s.thread 0 = .sleeps ∧
      ¬MaskHas (s.task 2).cpusAllowed (s.task 2).cpu ∧ ∃ ops' s', Run FinishStep s ops' s' ∧
        (∀ t, s'.pc t = .outside ∨ ∃ child, s'.pc t = .forking child) ∧ (∀ c, s'.pend c = []) ∧
        ∀ p, s'.Ordinary p → MaskHas (s'.task p).cpusAllowed (s'.task p).cpu := by
  intro ops
  have hord : ∀ {p : ℕ}, p % 3 = 2 → (boot 0xff).Ordinary p := ordinary_boot 0xff
  have hrun : Run (Guarded MigSafe SparingStep) (boot 0xff) ops _ :=
    Run.cons ⟨trivial, trivial, ⟨maySwitch_of_outside rfl (by decide), rfl,
        .inr (.inr ⟨hord (p := 5) rfl, rfl⟩), fun h => absurd h (by decide)⟩, rfl⟩
      (Run.cons ⟨trivial, hord (p := 2) rfl, ⟨hord (p := 5) rfl, rfl⟩, rfl⟩
        (Run.cons ⟨fun _ _ _ _ _ _ => ThreadPc.noConfusion, trivial, ⟨2, 2, rfl⟩, rfl⟩
          (Run.nil _)))
  obtain ⟨hinv, hmask, haffine⟩ := invs_safeRun (migInv_boot 0xff) (maskInv_boot 0xff) hrun
  obtain ⟨hattended, ops', s', hrun', hout, hpend, hplaced⟩ := exists_run_calls_return hinv hmask
  exact ⟨_, hrun.mono fun _ _ _ step => step.2, hattended, rfl, rfl, by decide, ops', s', hrun', hout,
    hpend, hplaced (haffine (affine_boot 0xff))⟩

end MigSys
end ShortSched
