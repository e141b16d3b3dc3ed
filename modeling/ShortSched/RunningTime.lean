import ShortSched.ConsumedTime
import ShortSched.TimeSteps

/-!
# The running time that `sched_setparam` tests

The kernel keeps no running time: `setscheduler` takes `requestedTime - time_slice` for it.
Ticks and accepted requests keep the two equal. A fork gives part of the slice to the child,
which the next request then counts as time that the parent has run.
-/

namespace ShortSched

open General Sys

/-! ## Steps -/

/-- A request in the range that users may ask for, in milliseconds. -/
def UserParam.InMs : UserParam → Prop
  | .valid lp => 1 ≤ lp.requestedTime.toInt ∧ lp.requestedTime.toInt ≤ 3000
  | _ => True

instance : DecidablePred UserParam.InMs
  | .valid _ => inferInstanceAs (Decidable (_ ∧ _))
  | .null | .fault => inferInstanceAs (Decidable True)

/-- The steps of a task `p` that is SHORT and not overdue: it reaps no child, and requests for
it are in range. -/
def StaysShort (p : TaskId) (s : Sys) (op : Op) : Prop :=
  (s.task p).ShortTask ∧ match op with
    | .setscheduler pid _ param => s.findProcessByPid pid = some p → param.InMs
    | .schedExit q => q ≠ p ∧ s.rq.curr ≠ p
    | _ => True

/-- The steps that let the slice of `p` and its ticks drift apart: a fork that gives part of the
slice away, and a tick that finds `p` in the expired array. -/
def Distorts (p : TaskId) (s : Sys) : Op → Prop
  | .doForkSplit => s.rq.curr = p ∧ 1 < (s.task p).timeSlice.toNat
  | .schedulerTick => s.rq.curr = p ∧ (s.task p).array = some s.rq.expired
  | _ => False

instance (p : TaskId) (s : Sys) : DecidablePred (Distorts p s)
  | .doForkSplit | .schedulerTick => inferInstanceAs (Decidable (_ ∧ _))
  | .tryToWakeUp _ _ | .schedule | .setUserNice _ _ | .setscheduler _ _ _ | .sysSchedYield
  | .doFork _ _ | .doForkWake | .vforkReturn | .schedExit _ | .doExit _ | .setCurrentState _
  | .setSigpending _ _ | .setJiffies _ => inferInstanceAs (Decidable False)

instance (p : TaskId) (s : Sys) : DecidablePred (StaysShort p s) := fun op =>
  match op with
  | .setscheduler _ _ _ => inferInstanceAs (Decidable (_ ∧ (_ → _)))
  | .schedExit _ => inferInstanceAs (Decidable (_ ∧ _ ∧ _))
  | .tryToWakeUp _ _ | .schedule | .schedulerTick | .setUserNice _ _ | .sysSchedYield
  | .doFork _ _ | .doForkSplit | .doForkWake | .vforkReturn | .doExit _ | .setCurrentState _
  | .setSigpending _ _ | .setJiffies _ => inferInstanceAs (Decidable (_ ∧ True))

/-! ## What is tested -/

/-- A task that has run for `n` jiffies of its request. -/
structure HasRun (n : ℕ) (q : TaskSched) : Prop where
  slice_ge : 1 ≤ q.timeSlice.toNat
  slice_eq : (q.timeSlice.toNat : ℤ) + n = q.requestedTime.toInt

variable [Param] {s s' s₁ : Sys} {op : Op} {p : TaskId} {n : ℕ} {k : Ticks}

/-- The requests of permitted callers are accepted if they exceed `n` jiffies. -/
def TestsRunningTime (p : TaskId) (n : ℕ) (s : Sys) : Prop :=
  ∀ (pid : ℤ) (lp : SchedParam), 0 ≤ pid → s.findProcessByPid pid = some p → s.MayShorten p →
    1 ≤ lp.requestedTime.toInt → lp.requestedTime.toInt ≤ 3000 →
    ((∃ s', s.sysSchedSetparam pid (.valid lp) = some (0, s')) ↔
      (n : ℤ) < (changeMsToJiffis lp.requestedTime).toInt)

/-- The code's own test. -/
theorem setparam_accepts_iff {pid : ℤ} {lp : SchedParam} (hshort : (s.task p).policy = .short)
    (hpid : 0 ≤ pid) (hfound : s.findProcessByPid pid = some p) (hmay : s.MayShorten p) :
    (∃ s', s.sysSchedSetparam pid (.valid lp) = some (0, s')) ↔
      lp.requestedTime ≤ 3000 ∧ (changeMsToJiffis lp.requestedTime).toUInt32 >
        (s.task p).requestedTime.toUInt32 - (s.task p).timeSlice := by
  constructor
  · rintro ⟨s', hcall⟩
    exact (setscheduler_adjusts hshort hfound hcall).2
  · rintro ⟨hle, hgt⟩
    exact ⟨_, setscheduler_of_adjust ⟨rfl, hpid, hfound⟩ hshort (.inl (by decide)) hle hgt hmay⟩

/-- A task that has run for `n` jiffies is tested against them. -/
theorem HasRun.accepts_iff {pid : ℤ} {lp : SchedParam} (h : HasRun n (s.task p).toTaskSched)
    (hshort : (s.task p).policy = .short) (hpid : 0 ≤ pid)
    (hfound : s.findProcessByPid pid = some p) (hmay : s.MayShorten p)
    (hge : 1 ≤ lp.requestedTime.toInt) (hle : lp.requestedTime.toInt ≤ 3000) :
    (∃ s', s.sysSchedSetparam pid (.valid lp) = some (0, s')) ↔
      (n : ℤ) < (changeMsToJiffis lp.requestedTime).toInt := by
  have hthree : (3000 : Int32).toInt = 3000 := by decide
  obtain ⟨hnew, -⟩ := changeMsToJiffis_le_max (by omega) hle
  have hnat := toNat_toUInt32 (changeMsToJiffis lp.requestedTime)
  have hnat_old := toNat_toUInt32 (s.task p).requestedTime
  have hlt := (changeMsToJiffis lp.requestedTime).toInt_lt
  have hlt_old := (s.task p).requestedTime.toInt_lt
  have heq := h.slice_eq
  rw [setparam_accepts_iff hshort hpid hfound hmay, Int32.le_iff_toInt_le, hthree, gt_iff_lt,
    UInt32.lt_iff_toNat_lt, UInt32.toNat_sub]
  omega

theorem HasRun.tests (h : HasRun n (s.task p).toTaskSched) (hshort : (s.task p).policy = .short) :
    TestsRunningTime p n s :=
  fun _ _ hpid hfound hmay hge hle => h.accepts_iff hshort hpid hfound hmay hge hle

omit [Param] in
/-- The next greater multiple of 1000 is hit by a multiple of at most 1000. -/
theorem exists_mul_div {h k : ℕ} (hpos : 0 < h) (hle : h ≤ 1000) :
    (1000 * k + h - 1) / h * h / 1000 = k := by
  have hmod := Nat.div_add_mod' (1000 * k + h - 1) h
  have hlt := Nat.mod_lt (1000 * k + h - 1) hpos
  generalize (1000 * k + h - 1) / h * h = x at hmod ⊢
  omega

/-- There is a request for every number of jiffies up to the maximum. -/
theorem exists_request {j : ℕ} (hj : 1 ≤ j) (hmax : (j : ℤ) ≤ maxRequestedTime.toInt) :
    ∃ lp : SchedParam, 1 ≤ lp.requestedTime.toInt ∧ lp.requestedTime.toInt ≤ 3000 ∧
      (changeMsToJiffis lp.requestedTime).toInt = j := by
  have hhz' := hz_le
  rw [maxRequestedTime_toInt] at hmax
  set x := (1000 * j + hz - 1) / hz with hx
  have hxlt : x < 3001 := by
    rw [hx, Nat.div_lt_iff_lt_mul (by omega)]
    omega
  have hxpos : 0 < x := Nat.div_pos (by omega) (by omega)
  have hval : (Int32.ofNat x).toInt = x := Int32.toInt_ofNat_of_lt (by omega)
  refine ⟨⟨0, Int32.ofNat x⟩, ?_, ?_, ?_⟩
  · show 1 ≤ (Int32.ofNat x).toInt
    omega
  · show (Int32.ofNat x).toInt ≤ 3000
    omega
  · show (changeMsToJiffis (Int32.ofNat x)).toInt = j
    obtain ⟨heq, -⟩ := @changeMsToJiffis_of_nonneg _ (Int32.ofNat x) (by omega) (by omega)
    rw [heq, hval]
    exact_mod_cast exists_mul_div (k := j) (by omega) hhz'

/-- A running task is tested against no other number of jiffies than it has run for. -/
theorem HasRun.not_tests {m : ℕ} (h : HasRun m (s.task p).toTaskSched)
    (hshort : (s.task p).policy = .short) (hcurr : s.rq.curr = p) (hne : m ≠ n)
    (hmax : ((min m n : ℕ) : ℤ) < maxRequestedTime.toInt) : ¬TestsRunningTime p n s := by
  intro htests
  -- a request between the two numbers
  obtain ⟨lp, hge, hle, hj⟩ := exists_request (j := min m n + 1) (by omega) (by omega)
  have hfound : s.findProcessByPid 0 = some p := by
    rw [← hcurr]
    exact if_neg (not_not.mpr rfl)
  have hmay : s.MayShorten p := .inl (by rw [← hcurr])
  have haccepts := h.accepts_iff hshort le_rfl hfound hmay hge hle
  have hclaimed := htests 0 lp le_rfl hfound hmay hge hle
  rw [haccepts, hj] at hclaimed
  omega

/-! ## Runs -/

/-- The invariant of a run that begins when `p` is made SHORT. -/
structure RunningInv (p : TaskId) (s : Sys) (k : Ticks) : Prop where
  ne_idle : p ≠ s.rq.idle
  owns : s.OwnsSlice p
  ok : TaskOk (s.task p).toTaskSched
  run : (s.task p).ShortTask → HasRun k.count (s.task p).toTaskSched

omit [Param] in
theorem Ticks.next_of_ne (hop : op ≠ .schedulerTick) : (k.next p s op).count = k.count := by
  rw [Ticks.next, if_neg fun hc => hop hc.1]

omit [Param] in
theorem Ticks.next_of_tick (hcurr : s.rq.curr = p) :
    (k.next p s .schedulerTick).count = k.count + 1 := by
  rw [Ticks.next, if_pos ⟨rfl, hcurr⟩]

omit [Param] in
theorem HasRun.congr {q q' : TaskSched} (h : HasRun n q) (hsame : SameTime q q') : HasRun n q' := by
  refine ⟨?_, ?_⟩
  · rw [hsame.timeSlice]
    exact h.slice_ge
  · rw [hsame.timeSlice, hsame.requestedTime]
    exact h.slice_eq

/-- A tick. -/
theorem HasRun.afterTick {u : Task} (h : HasRun n u.toTaskSched) (hok : TaskOk u.toTaskSched)
    (hshort : u.ShortTask) (hshort' : u.afterTick.ShortTask) :
    HasRun (n + 1) u.afterTick.toTaskSched := by
  have hrt : ¬u.RtTask := hok.not_rtTask (.inr hshort.1)
  by_cases hone : u.timeSlice = 1
  · -- the last one makes the task overdue
    rw [Task.afterTick_last_short hrt hshort hone] at hshort'
    exact absurd hshort'.2 one_ne_zero
  · rw [Task.afterTick_run hrt hone]
    rw [slice_eq_one] at hone
    have hge := h.slice_ge
    have heq := h.slice_eq
    have hsub := toNat_sub_one hge
    refine ⟨?_, ?_⟩
    · show 1 ≤ (u.timeSlice - 1).toNat
      omega
    · show ((u.timeSlice - 1).toNat : ℤ) + (n + 1 : ℕ) = u.requestedTime.toInt
      omega

/-- A request. -/
theorem HasRun.adjustShort {u : Task} {lp : SchedParam} (h : HasRun n u.toTaskSched)
    (hnew : 0 ≤ (changeMsToJiffis lp.requestedTime).toInt)
    (hgt : (changeMsToJiffis lp.requestedTime).toUInt32 > u.requestedTime.toUInt32 - u.timeSlice) :
    HasRun n (u.adjustShort lp).toTaskSched := by
  have heq := h.slice_eq
  obtain ⟨-, hpos, hslice⟩ := adjustShort_slice (by omega) (by omega) hnew hgt
  refine ⟨hpos, ?_⟩
  show ((u.adjustShort lp).timeSlice.toNat : ℤ) + n = (changeMsToJiffis lp.requestedTime).toInt
  omega

/-- **A step** that does not distort. -/
theorem RunningInv.step (h : RunningInv p s k) (hstep : Step s op s') (hstays : StaysShort p s op)
    (hclean : ¬Distorts p s op) : RunningInv p s' (k.next p s op) := by
  obtain ⟨hshort, hop⟩ := hstays
  have hne : ∀ cloneFlags env, op = .doFork cloneFlags env → p ≠ env.child :=
    ne_child_of_isTask hstep h.owns.isTask
  have hreap : op ≠ .schedExit p := by
    rintro rfl
    exact hop.1 rfl
  have hok : TaskOk (s'.task p).toTaskSched :=
    (step_sched hstep p).taskOk h.ok fun _ _ hfork hc => absurd hc (hne _ _ hfork)
  refine ⟨by rw [step_idle hstep]; exact h.ne_idle, ownsSlice_step hstep hreap h.owns, hok,
    fun hshort' => ?_⟩
  have hrun := h.run hshort
  have htime := step_time hstep p
  generalize (s'.task p).toTaskSched = p' at htime hshort' ⊢
  cases htime with
  | same huntouched hsame =>
    have hcount : (k.next p s op).count = k.count := by
      rw [Ticks.next, if_neg]
      rintro ⟨rfl, rfl⟩
      exact huntouched ⟨rfl, h.ne_idle, fun hc => hclean ⟨rfl, hc⟩⟩
    rw [hcount]
    exact hrun.congr hsame
  | tick ht =>
    rw [Ticks.next_of_tick ht.symm]
    exact hrun.afterTick h.ok hshort hshort'
  | @adjust pid policy param lp target _ hgt =>
    have hms := hop target.found
    rw [target.param_eq] at hms
    exact hrun.adjustShort (changeMsToJiffis_le_max (by have := hms.1; omega) hms.2).1 hgt
  | make _ hother => exact absurd (hother.symm.trans hshort.1) (by decide)
  | setPolicy _ hnot => exact absurd hshort.1 hnot
  | forkSlice ht _ hslice =>
    -- a single jiffy is not split
    exfalso
    apply hslice
    have hle : ¬1 < (s.task p).timeSlice.toNat := fun hc => hclean ⟨ht.symm, hc⟩
    rw [← UInt32.toNat_inj, Task.toNat_parentSlice fun _ => hshort]
    show (s.task p).timeSlice.toNat / 2 = 0
    omega
  | forkExpired ht =>
    have hle : ¬1 < (s.task p).timeSlice.toNat := fun hc => hclean ⟨ht.symm, hc⟩
    have hge := hrun.slice_ge
    have hone : (s.task p).timeSlice = 1 := slice_eq_one.mpr (by omega)
    refine hrun.congr ⟨rfl, rfl, ?_, rfl, rfl, rfl⟩
    exact hone.symm
  | forkTick =>
    exfalso
    have hrt : ¬(s.task p).RtTask := h.ok.not_rtTask (.inr hshort.1)
    have hlast := Task.afterTick_last_short
      (t := { s.task p with timeSlice := 1, justGotForked := 0 }) hrt hshort rfl
    rw [hlast] at hshort'
    exact absurd hshort'.2 one_ne_zero
  | forkCopy _ hchild => exact absurd hchild (hne _ _ rfl)
  | forkChild hf hchild => exact absurd hchild (ne_child_of_ownsSlice hstep hf h.owns)
  | reap ht => exact absurd ht.symm hop.2

/-- A task that is made SHORT has not run yet. -/
theorem runningInv_of_make {pid policy : ℤ} {param : UserParam}
    (hok : TaskOk (s.task p).toTaskSched) (htask : s.IsTask p) (hother : (s.task p).OtherTask)
    (hmake : Step s (.setscheduler pid policy param) s₁) (hshort : (s₁.task p).ShortTask) :
    RunningInv p s₁ ⟨0, false⟩ := by
  have hidle := step_idle hmake
  have hok' := (step_sched hmake p).taskOk hok nofun
  have howns := ownsSlice_step hmake nofun (ownsSlice_of_isTask hmake.1.1 htask)
  have htime := step_time hmake p
  have hnot : (s.task p).policy ≠ .short := fun hc => absurd (hother.symm.trans hc) (by decide)
  suffices h : p ≠ s.rq.idle ∧ HasRun 0 (s₁.task p).toTaskSched from
    ⟨hidle ▸ h.1, howns, hok', fun _ => h.2⟩
  generalize (s₁.task p).toTaskSched = p' at htime hshort ⊢
  cases htime with
  | same _ hsame => exact absurd (hsame.policy.symm.trans hshort.1) hnot
  | adjust _ hshort' => exact absurd hshort' hnot
  | setPolicy _ _ hnew hsame => exact absurd (hsame.policy.symm.trans hshort.1) hnew
  | @make _ _ _ lp _ target _ _ hge hsame =>
    refine ⟨fun hc => hmake.1.2 (hc ▸ target.found), HasRun.congr ?_ hsame⟩
    have hnat := toNat_toUInt32 (changeMsToJiffis lp.requestedTime)
    have hlt := (changeMsToJiffis lp.requestedTime).toInt_lt
    have hge' := Int32.le_iff_toInt_le.mp hge
    have hmin : minRequestedTime.toInt = 1 := by decide
    refine ⟨?_, ?_⟩
    · show 1 ≤ (changeMsToJiffis lp.requestedTime).toUInt32.toNat
      omega
    · show ((changeMsToJiffis lp.requestedTime).toUInt32.toNat : ℤ) + (0 : ℕ) =
        (changeMsToJiffis lp.requestedTime).toInt
      omega

/-- After a step that distorts, the code has another number of jiffies than the ticks. -/
theorem HasRun.distorted (h : HasRun k.count (s.task p).toTaskSched)
    (hshort : (s.task p).ShortTask) (hstep : Step s op s') (hdistorts : Distorts p s op) :
    ∃ m, m ≠ (k.next p s op).count ∧ min m (k.next p s op).count = k.count ∧
      HasRun m (s'.task p).toTaskSched ∧ (s'.task p).policy = .short ∧ s'.rq.curr = p := by
  have heq := h.slice_eq
  cases op with
  | schedulerTick =>
    obtain ⟨rfl, hexpired⟩ := hdistorts
    obtain rfl := Option.some.inj hstep.2
    have hsame : (s.schedulerTick.task s.rq.curr).toTaskSched = s.current.toTaskSched := by
      rw [schedulerTick_sched, if_neg fun hc => hc.2.2 hexpired]
    have hcount : (k.next s.rq.curr s .schedulerTick).count = k.count + 1 := Ticks.next_of_tick rfl
    refine ⟨k.count, by omega, by omega, ?_, ?_, (samePtrs_schedulerTick s).curr⟩
    · rw [hsame]
      exact h
    · rw [hsame]
      exact hshort.1
  | doForkSplit =>
    obtain ⟨rfl, htwo⟩ := hdistorts
    have hcurr : s'.rq.curr = s.rq.curr := by
      rcases (step_ptrs hstep).2 with hptrs | hop | hop
      · exact hptrs.curr
      · cases hop
      · cases hop
    have hcount : (k.next s.rq.curr s .doForkSplit).count = k.count :=
      Ticks.next_of_ne nofun
    have hhalf := Task.toNat_parentSlice fun _ => hshort
    have hslice : ∃ slice, (s'.task s.rq.curr).toTaskSched =
        { s.current.toTaskSched with timeSlice := slice } ∧
          slice.toNat = s.current.timeSlice.toNat / 2 := by
      have htime := doForkSplit_curr_time hstep
      generalize (s'.task s.rq.curr).toTaskSched = p' at htime ⊢
      cases htime with
      | slice => exact ⟨_, rfl, hhalf⟩
      | expired _ hslice | tick _ hslice =>
        rw [← UInt32.toNat_inj, hhalf] at hslice
        have hzero : (s.task s.rq.curr).timeSlice.toNat / 2 = 0 := hslice
        omega
    obtain ⟨slice, hsched, hval⟩ := hslice
    have hval' : slice.toNat = (s.task s.rq.curr).timeSlice.toNat / 2 := hval
    refine ⟨k.count + ((s.task s.rq.curr).timeSlice.toNat - slice.toNat), by omega, by omega, ?_, ?_,
      hcurr⟩
    · rw [hsched]
      refine ⟨?_, ?_⟩
      · show 1 ≤ slice.toNat
        omega
      · show (slice.toNat : ℤ) + _ = (s.task s.rq.curr).requestedTime.toInt
        omega
    · rw [hsched]
      exact hshort.1
  | _ => exact hdistorts.elim

/-- **`sched_setparam` tests the running time** of a SHORT task in every run without a fork that
gives part of its slice away and without a lost tick; either of them makes it test something
else. -/
theorem testsRunningTime_of_run {pid policy : ℤ} {param : UserParam}
    (hok : TaskOk (s.task p).toTaskSched) (htask : s.IsTask p) (hother : (s.task p).OtherTask)
    (hmake : Step s (.setscheduler pid policy param) s₁) (hshort : (s₁.task p).ShortTask)
    {ops : List Op} (hrun : Run (Ghost (Guarded (fun s op => StaysShort p s op ∧ ¬Distorts p s op)
      Step) (Ticks.next p)) (s₁, ⟨0, false⟩) ops (s', k)) (hshort' : (s'.task p).ShortTask) :
    TestsRunningTime p k.count s' ∧ ∀ op s'', Step s' op s'' → Distorts p s' op →
      (k.count : ℤ) < maxRequestedTime.toInt →
        ¬TestsRunningTime p (k.next p s' op).count s'' := by
  have hinv : RunningInv p s' k :=
    hrun.invariant (P := fun x => RunningInv p x.1 x.2)
      (fun x op y h hstep => by
        obtain ⟨⟨⟨hstays, hclean⟩, hstep⟩, hnext⟩ := hstep
        rw [hnext]
        exact h.step hstep hstays hclean)
      (runningInv_of_make hok htask hother hmake hshort)
  have hhas := hinv.run hshort'
  refine ⟨hhas.tests hshort'.1, fun op s'' hstep hdistorts hmax => ?_⟩
  obtain ⟨m, hne, hmin, hhas', hpolicy, hcurr⟩ := hhas.distorted hshort' hstep hdistorts
  exact hhas'.not_tests hpolicy hcurr hne (by omega)

omit [Param] in
/-- A task asks for 100 jiffies and forks: without a single tick, a request of 40 jiffies is too
small for the code. -/
theorem fork_distorts_runningTime :
    (TaskOk (privilegedTask.task 1).toTaskSched ∧ privilegedTask.IsTask 1 ∧
      (privilegedTask.task 1).OtherTask) ∧
    ∃ s₁ s' k, @Step hz100 privilegedTask (.setscheduler 0 5 (.valid ⟨0, 1000⟩)) s₁ ∧
      Run (Ghost (Guarded (StaysShort 1) (@Step hz100)) (Ticks.next 1)) (s₁, ⟨0, false⟩)
        [.doFork 0 ⟨2, 2, 0⟩, .doForkSplit, .doForkWake] (s', k) ∧
      (s'.task 1).ShortTask ∧ k.count = 0 ∧ ¬@TestsRunningTime hz100 1 k.count s' := by
  let make : Op := .setscheduler 0 5 (.valid ⟨0, 1000⟩)
  let fork : List Op := [.doFork 0 ⟨2, 2, 0⟩, .doForkSplit, .doForkWake]
  refine ⟨⟨by decide, .inl (by decide), by decide⟩, ?_⟩
  have hmake : (@runOps hz100 [make] privilegedTask).isSome = true := by decide +kernel
  obtain ⟨s₁, hs₁⟩ := Option.isSome_iff_exists.mp hmake
  have hall : ((@runOps hz100 [make] privilegedTask >>= @runIf hz100 (StaysShort 1) _ fork).map
      fun s => (decide (s.task 1).ShortTask, s.rq.curr,
        (@sysSchedSetparam hz100 0 (.valid ⟨0, 400⟩) s).map Prod.fst)) =
      some (true, 1, some (-22)) := by
    decide +kernel
  rw [hs₁] at hall
  obtain ⟨s', hs', hval⟩ := Option.map_eq_some_iff.mp hall
  simp only [Prod.mk.injEq, decide_eq_true_eq] at hval
  obtain ⟨hshort, hcurr, hrefused⟩ := hval
  have hrun := (@guarded_run_iff_runIf hz100 _ _ _ _ _).mpr hs'
  have hstep := (@runOps_single hz100 _ _ _).mp hs₁
  -- no tick is counted
  obtain ⟨k, hghost⟩ : ∃ k, Run (Ghost _ (Ticks.next 1)) (s₁, ⟨0, false⟩) fork (s', k) :=
    hrun.exists_ghost _
  have hcount : k.count = 0 := by
    obtain ⟨x, ⟨-, hx⟩, hrest⟩ := Run.cons_iff.mp hghost
    obtain ⟨y, ⟨-, hy⟩, hrest⟩ := Run.cons_iff.mp hrest
    obtain ⟨-, hk⟩ := Run.single_iff.mp hrest
    have hk : k = y.2.next 1 y.1 .doForkWake := hk
    rw [hk, Ticks.next_of_ne (by nofun), hy, Ticks.next_of_ne (by nofun), hx,
      Ticks.next_of_ne (by nofun)]
  refine ⟨s₁, s', k, hstep, hghost, hshort, hcount, fun htests => ?_⟩
  rw [hcount] at htests
  have hfound : s'.findProcessByPid 0 = some 1 := by
    rw [← hcurr]
    exact if_neg (not_not.mpr rfl)
  have hmay : s'.MayShorten 1 := .inl (by rw [← hcurr])
  obtain ⟨s'', hcall⟩ := (htests 0 ⟨0, 400⟩ le_rfl hfound hmay (by decide) (by decide)).mpr
    (by decide +kernel)
  rw [hcall] at hrefused
  have hval : (0 : ℤ) = -22 := Option.some.inj hrefused
  exact absurd hval (by decide)

omit [Param] in
/-- After two ticks a request is tested against two jiffies. -/
theorem testsRunningTime_of_run_two : ∃ s₁ s' k,
    @Step hz100 privilegedTask (.setscheduler 0 5 (.valid ⟨0, 1000⟩)) s₁ ∧
      Run (Ghost (Guarded (fun s op => StaysShort 1 s op ∧ ¬Distorts 1 s op) (@Step hz100))
        (Ticks.next 1)) (s₁, ⟨0, false⟩) [.schedulerTick, .schedulerTick] (s', k) ∧
      @TestsRunningTime hz100 1 k.count s' := by
  let make : Op := .setscheduler 0 5 (.valid ⟨0, 1000⟩)
  have hmake : ((@runOps hz100 [make] privilegedTask).map fun s =>
      decide (s.task 1).ShortTask) = some true := by
    decide +kernel
  obtain ⟨s₁, hs₁, hshort⟩ := Option.map_eq_some_iff.mp hmake
  have hstep := (@runOps_single hz100 _ _ _).mp hs₁
  have hticks : ((@runOps hz100 [make] privilegedTask >>=
      @runIf hz100 (fun s op => StaysShort 1 s op ∧ ¬Distorts 1 s op) _
        [.schedulerTick, .schedulerTick]).map fun s => decide (s.task 1).ShortTask) = some true := by
    decide +kernel
  rw [hs₁] at hticks
  obtain ⟨s', hs', hshort'⟩ := Option.map_eq_some_iff.mp hticks
  obtain ⟨k, hrun⟩ : ∃ k, Run (Ghost _ (Ticks.next 1)) (s₁, ⟨0, false⟩) _ (s', k) :=
    ((@guarded_run_iff_runIf hz100 _ _ _ _ _).mpr hs').exists_ghost _
  exact ⟨s₁, s', k, hstep, hrun, (@testsRunningTime_of_run hz100 _ _ _ 1 k 0 5 _ (by decide)
    (.inl (by decide)) (by decide) hstep (of_decide_eq_true hshort) _ hrun
    (of_decide_eq_true hshort')).1⟩

end ShortSched
