import ShortSched.Atomicity
import ShortSched.RunqueueRuns
import ShortSched.Starvation

/-!
# The interactivity bonus

`activate_task` raises `sleep_avg` by the time since `sleep_timestamp`. For a task that stays on
the runqueue that is no time that it slept: `schedule` writes the timestamp whenever the task is
switched out, and `setscheduler` takes a queued task through `activate_task`.
-/

namespace ShortSched

open General Sys

/-! ## The bonus -/

section bonus
variable [Param]

/-- `activate_task` raises the `sleep_avg` of the task: the sum must not wrap around. -/
def Task.EarnsBonus (jiffies : UInt32) (t : Task) : Prop :=
  (¬t.RtTask ∧ jiffies - t.sleepTimestamp ≠ 0) ∧ t.sleepAvg < maxSleepAvg ∧
    t.sleepAvg.toNat + (jiffies - t.sleepTimestamp).toNat < 2 ^ 32

/-- The sleep average after a wake-up. -/
theorem Task.woken_sleepAvg (jiffies : UInt32) (t : Task) : (t.woken jiffies).sleepAvg =
    if ¬t.RtTask ∧ jiffies - t.sleepTimestamp ≠ 0 then
      if t.sleepAvg + (jiffies - t.sleepTimestamp) > maxSleepAvg then maxSleepAvg
      else t.sleepAvg + (jiffies - t.sleepTimestamp)
    else t.sleepAvg := by
  unfold woken creditSleep
  dsimp only
  split
  · split <;> rfl
  · rfl

/-- It grows if and only if the task has earned a bonus. -/
theorem Task.woken_sleepAvg_le_iff (jiffies : UInt32) (t : Task) :
    (t.woken jiffies).sleepAvg.toNat ≤ t.sleepAvg.toNat ↔ ¬t.EarnsBonus jiffies := by
  by_cases hwoken : ¬t.RtTask ∧ jiffies - t.sleepTimestamp ≠ 0
  swap
  · rw [woken_sleepAvg, if_neg hwoken]
    exact iff_of_true le_rfl fun h => hwoken h.1
  have hpos := slice_pos.mpr hwoken.2
  have hsum : (t.sleepAvg + (jiffies - t.sleepTimestamp)).toNat =
      (t.sleepAvg.toNat + (jiffies - t.sleepTimestamp).toNat) % 2 ^ 32 := UInt32.toNat_add _ _
  have hlt := (jiffies - t.sleepTimestamp).toNat_lt
  have hearns : t.EarnsBonus jiffies ↔ t.sleepAvg.toNat < maxSleepAvg.toNat ∧
      t.sleepAvg.toNat + (jiffies - t.sleepTimestamp).toNat < 2 ^ 32 := by
    rw [← UInt32.lt_iff_toNat_lt]
    exact and_iff_right hwoken
  rw [hearns, woken_sleepAvg, if_pos hwoken]
  split
  · next hmax =>
    have hmax' : maxSleepAvg.toNat < (t.sleepAvg + (jiffies - t.sleepTimestamp)).toNat :=
      UInt32.lt_iff_toNat_lt.mp hmax
    omega
  · next hmax =>
    have hmax' : ¬maxSleepAvg.toNat < (t.sleepAvg + (jiffies - t.sleepTimestamp)).toNat :=
      fun h => hmax (UInt32.lt_iff_toNat_lt.mpr h)
    omega

end bonus

variable [Param] {s s' : Sys} {op : Op} {p t : TaskId}

/-! ## What the other operations do -/

omit [Param] in
/-- A tick lowers it, if it does anything. -/
theorem Task.tick_sleepAvg_le (t : Task) : t.tick.sleepAvg.toNat ≤ t.sleepAvg.toNat := by
  unfold tick
  dsimp only
  split
  · next hne =>
    show (t.sleepAvg - 1).toNat ≤ _
    rw [toNat_sub_one (slice_pos.mpr hne)]
    omega
  · exact le_rfl

theorem Task.expire_sleepAvg (t : Task) : t.expire.sleepAvg = t.sleepAvg := by
  simp only [expire, expireClass]
  split
  · rfl
  · split <;> rfl

namespace Sys

omit [Param] in
/-- `schedule` leaves the sleep averages alone. -/
theorem schedulePass_sleepAvg (h : s.schedulePass = some s') (t : TaskId) :
    (s'.task t).sleepAvg = (s.task t).sleepAvg := by
  obtain ⟨s₁, next, s₂, hprev, hpick, rfl⟩ := schedulePass_eq_some h
  have hbegin : (s.passBegin.task t).sleepAvg = (s.task t).sleepAvg :=
    modify_proj (fun t => t.sleepAvg) rfl t
  have hprev' : (s₁.task t).sleepAvg = (s.passBegin.task t).sleepAvg := by
    by_cases hsleep : (s.passBegin.task s.rq.curr).GoesToSleep
    · rw [deactivatePrev_of_asleep hsleep] at hprev
      obtain ⟨array, -, rfl⟩ := deactivateTask_eq_some hprev
      rw [modify_proj (fun t => t.sleepAvg) rfl, dequeueTask_task]
      rfl
    · rw [deactivatePrev_of_awake hsleep] at hprev
      obtain rfl := Option.some.inj hprev
      exact modify_proj (fun t => t.sleepAvg) rfl t
  have hswitch : ((s₂.switchTasks s.rq.curr next).task t).sleepAvg = (s₂.task t).sleepAvg := by
    have hclear : ((s₂.clearTskNeedResched s.rq.curr).task t).sleepAvg = (s₂.task t).sleepAvg :=
      modify_proj (fun t => t.sleepAvg) rfl t
    unfold switchTasks
    split <;> exact hclear
  rw [hswitch, (pickNext_frame hpick).task, hprev', hbegin]

omit [Param] in
theorem schedule_sleepAvg (h : s.schedule = some s') (t : TaskId) :
    (s'.task t).sleepAvg = (s.task t).sleepAvg := by
  have hpass : ∀ s₁ s₂ : Sys, (s₁.task t).sleepAvg = (s.task t).sleepAvg →
      s₁.schedulePass = some s₂ → (s₂.task t).sleepAvg = (s.task t).sleepAvg :=
    fun _ _ hs hpass => (schedulePass_sleepAvg hpass t).trans hs
  exact scheduleLoop_induct hpass h rfl

/-- No sleep average grows over a tick. -/
theorem schedulerTick_sleepAvg_le (s : Sys) (t : TaskId) :
    (s.schedulerTick.task t).sleepAvg.toNat ≤ (s.task t).sleepAvg.toNat := by
  by_cases ht : t = s.rq.curr
  swap
  · rw [schedulerTick_task_of_ne ht]
  subst ht
  have hexpire : (s.expireState.task s.rq.curr).sleepAvg.toNat ≤ s.current.sleepAvg.toNat := by
    rw [expireState_task, Function.update_self, Task.expire_sleepAvg]
    exact s.current.tick_sleepAvg_le
  have hcase := s.schedulerTick_cases
  generalize s.schedulerTick = s' at hcase ⊢
  cases hcase with
  | idle | fifo => exact le_rfl
  | expired | rr => exact (modify_proj (fun t => t.sleepAvg.toNat) rfl _).le
  | rrRefill =>
    rw [enqueueTail_task, Function.update_self, dequeueTask_task]
    simp [rrRefill, setTskNeedResched]
  | run =>
    rw [modify_task, Function.update_self]
    exact s.current.tick_sleepAvg_le
  | toExpired =>
    rw [enqueueTail_task, Function.update_self, stampExpired_task]
    exact hexpire
  | requeue =>
    rw [enqueueTail_task, Function.update_self]
    exact hexpire

omit [Param] in
theorem setUserNice_sleepAvg (p t : TaskId) (nice : ℤ) (s : Sys) :
    ((s.setUserNice p nice).task t).sleepAvg = (s.task t).sleepAvg := by
  obtain ⟨_, hinfo⟩ := setUserNice_info p t nice s
  rw [hinfo]

/-- A wake-up does not change the sleep average of another task. -/
theorem tryToWakeUp_sleepAvg (ht : t ≠ p) (sync : Bool) (s : Sys) :
    ((s.tryToWakeUp p sync).2.task t).sleepAvg = (s.task t).sleepAvg := by
  by_cases h : (s.task p).array = none
  · have hprepare : ((s.wakePrepare p sync).task t).sleepAvg = (s.task t).sleepAvg := by
      have hcpu : ((s.modify p fun t => { t with cpu := smpProcessorId }).task t).sleepAvg =
          (s.task t).sleepAvg := modify_proj (fun t => t.sleepAvg) rfl t
      unfold wakePrepare
      split <;> split <;> first | exact hcpu | rfl
    have hactivate : (((s.wakePrepare p sync).activateTask p).task t).sleepAvg =
        ((s.wakePrepare p sync).task t).sleepAvg := by
      rw [activateTask_task, modify_task, Function.update_of_ne ht]
    rw [tryToWakeUp_of_sleeping h, wakeFinish, modify_task, Function.update_of_ne ht, ← hprepare,
      ← hactivate]
    split
    · exact modify_proj (fun t => t.sleepAvg) rfl t
    · rfl
  · rw [tryToWakeUp_of_queued h]
    exact modify_proj (fun t => t.sleepAvg) rfl t

omit [Param] in
/-- Nor does a yield. -/
theorem sysSchedYield_sleepAvg (h : s.sysSchedYield = some s') (t : TaskId) :
    (s'.task t).sleepAvg = (s.task t).sleepAvg := by
  unfold sysSchedYield at h
  simp only [Option.bind_eq_bind, Option.bind_eq_some_iff] at h
  obtain ⟨s₁, hyield, hsched⟩ := h
  obtain ⟨array, -, hframe⟩ := yieldRequeue_eq_some hyield
  rw [schedule_sleepAvg hsched, hframe.task]
  exact modify_proj (s := s) (p := s.rq.curr)
    (f := fun t => { t with prio := s.yieldPrio s.rq.curr array }) (fun t => t.sleepAvg) rfl t

/-! ## What `setscheduler` does -/

variable {r pid policy : ℤ} {param : UserParam} {f : Task → Task}

theorem Requeues.sleepAvg_update (h : s.Requeues pid policy param p f) (t : Task) :
    (f t).sleepAvg = t.sleepAvg := by
  cases h <;> rfl

/-- A queued task that the call takes off its queue goes through `activate_task`. -/
theorem Requeues.sleepAvg_eq (h : s.Requeues pid policy param p f)
    (hqueued : (s.task p).array ≠ none) :
    ∃ s', s.setscheduler pid policy param = some (0, s') ∧
      (s'.task p).sleepAvg = ((f (s.task p)).woken s.jiffies).sleepAvg := by
  obtain ⟨s₁, s', hused, hcall, hs'⟩ := setscheduler_of_requeues h
  refine ⟨s', hcall, ?_⟩
  have hqueued₁ : (s₁.task p).array ≠ none := by
    rwa [hused.sameButFlags.sameTasks.array]
  have hrequeued : ((s₁.requeued p f).task p).sleepAvg =
      ((f (s₁.task p)).woken s₁.jiffies).sleepAvg := by
    have hinfo := requeued_info h.array_none p p s₁
    rw [if_pos rfl, if_neg hqueued₁] at hinfo
    exact congrArg TaskInfo.sleepAvg hinfo
  have hsame : ((f (s₁.task p)).woken s₁.jiffies).sleepAvg =
      ((f (s.task p)).woken s.jiffies).sleepAvg := by
    obtain ⟨flags, htask⟩ := hused.sameButFlags.task p
    rw [htask, hused.sameButFlags.jiffies]
    have hsched : (f { s.task p with flags := flags }).toTaskSched = (f (s.task p)).toTaskSched := by
      cases h <;> rfl
    have havg : (f { s.task p with flags := flags }).sleepAvg = (f (s.task p)).sleepAvg := by
      cases h <;> rfl
    have hstamp : (f { s.task p with flags := flags }).sleepTimestamp =
        (f (s.task p)).sleepTimestamp := by
      cases h <;> rfl
    rw [Task.woken_sleepAvg, Task.woken_sleepAvg, hsched, havg, hstamp]
  rw [← hsame, ← hrequeued]
  rcases hs' with rfl | rfl
  · rfl
  · exact modify_proj (fun t => t.sleepAvg) rfl p

/-- No other call changes `sleep_avg`. -/
theorem setscheduler_sleepAvg (hcall : s.setscheduler pid policy param = some (r, s'))
    (hnot : ∀ f, ¬s.Requeues pid policy param p f) :
    (s'.task p).sleepAvg = (s.task p).sleepAvg := by
  have hused : ∀ s₁ : Sys, s.UsedPrivilege s₁ → (s₁.task p).sleepAvg = (s.task p).sleepAvg := by
    intro s₁ hused
    obtain ⟨flags, htask⟩ := hused.sameButFlags.task p
    rw [htask]
  have hother : ∀ (s₁ : Sys) (q : TaskId) (f : Task → Task), s.Requeues pid policy param q f →
      ((s₁.requeued q f).task p).sleepAvg = (s₁.task p).sleepAvg := by
    intro s₁ q f h
    have hne : p ≠ q := by
      rintro rfl
      exact hnot f h
    have hinfo := requeued_info h.array_none q p s₁
    rw [if_neg hne] at hinfo
    exact congrArg TaskInfo.sleepAvg hinfo
  by_cases hr : r = 0
  swap
  · exact hused s' (setscheduler_refused hcall hr)
  subst hr
  obtain ⟨q, hgranted⟩ := setscheduler_granted hcall
  have hresched : ∀ s₁ : Sys, ((s₁.setTskNeedResched s.rq.curr).task p).sleepAvg =
      (s₁.task p).sleepAvg := fun s₁ => modify_proj (fun t => t.sleepAvg) rfl p
  cases hgranted with
  | adjusted =>
    rw [hresched]
    exact modify_proj (fun t => t.sleepAvg) rfl p
  | madeShort h =>
    rw [hresched, hother s q _ h]
  | changed h hused₁ =>
    rw [hother _ q _ h, hused _ hused₁]

end Sys

/-! ## Runs of a task that stays on the runqueue -/

/-- The operation leaves the running task `p` on the runqueue, and is not a wake-up of `p`. -/
def StaysQueued (p : TaskId) (s : Sys) (op : Op) : Prop :=
  ClockForward s op ∧ (∀ sync, op ≠ .tryToWakeUp p sync) ∧ (s.task p).state = .running ∧
    (s.task p).array ≠ none

/-- The operation is a `setscheduler` call that succeeds, takes `p` off its queue, and gives it a
bonus when it puts `p` back. -/
def Credits (p : TaskId) (s : Sys) : Op → Prop
  | .setscheduler pid policy param => ∃ f, s.Requeues pid policy param p f ∧
      (f (s.task p)).EarnsBonus s.jiffies
  | _ => False

/-- **One step** of the scheduler raises `sleep_avg` of a queued task iff it credits it. -/
theorem sleepAvg_step (hstays : StaysQueued p s op) (hstep : Step s op s') :
    (s'.task p).sleepAvg.toNat ≤ (s.task p).sleepAvg.toNat ↔ ¬Credits p s op := by
  obtain ⟨hclock, hwake, -, hqueued⟩ := hstays
  obtain ⟨-, hexec⟩ := hstep
  cases op with
  | tryToWakeUp q sync =>
    obtain rfl := Option.some.inj hexec
    have hne : p ≠ q := by
      rintro rfl
      exact hwake sync rfl
    rw [tryToWakeUp_sleepAvg hne]
    exact iff_of_true le_rfl id
  | schedule =>
    rw [schedule_sleepAvg hexec]
    exact iff_of_true le_rfl id
  | schedulerTick =>
    obtain rfl := Option.some.inj hexec
    exact iff_of_true (schedulerTick_sleepAvg_le s p) id
  | setUserNice q nice =>
    obtain rfl := Option.some.inj hexec
    rw [setUserNice_sleepAvg]
    exact iff_of_true le_rfl id
  | sysSchedYield =>
    rw [sysSchedYield_sleepAvg hexec]
    exact iff_of_true le_rfl id
  | setCurrentState | setSigpending =>
    obtain rfl := Option.some.inj hexec
    exact iff_of_true (modify_proj (fun t => t.sleepAvg.toNat) rfl p).le id
  | setJiffies =>
    obtain rfl := Option.some.inj hexec
    exact iff_of_true le_rfl id
  | setscheduler pid policy param =>
    obtain ⟨⟨r, s₁⟩, hcall, rfl⟩ := Option.map_eq_some_iff.mp hexec
    have hrequeued : ∀ f, s.Requeues pid policy param p f →
        ((s₁.task p).sleepAvg.toNat ≤ (s.task p).sleepAvg.toNat ↔
          ¬(f (s.task p)).EarnsBonus s.jiffies) := by
      intro f hf
      obtain ⟨s₂, hcall₂, havg⟩ := hf.sleepAvg_eq hqueued
      obtain rfl : s₁ = s₂ := congrArg Prod.snd (Option.some.inj (hcall.symm.trans hcall₂))
      rw [havg, ← Task.woken_sleepAvg_le_iff, hf.sleepAvg_update]
    constructor
    · intro hle hcredits
      obtain ⟨f, hf, hearns⟩ := hcredits
      exact (hrequeued f hf).mp hle hearns
    · intro hnot
      by_cases hrequeues : ∃ f, s.Requeues pid policy param p f
      · obtain ⟨f, hf⟩ := hrequeues
        exact (hrequeued f hf).mpr fun hearns => hnot ⟨f, hf, hearns⟩
      · have hnone : ∀ f, ¬s.Requeues pid policy param p f := fun f hf => hrequeues ⟨f, hf⟩
        rw [setscheduler_sleepAvg hcall hnone]
  | doFork | doForkSplit | doForkWake | vforkReturn | schedExit | doExit => exact absurd hclock id

theorem step_functional {s₁ s₂ : Sys} (h₁ : Guarded (StaysQueued p) Step s op s₁)
    (h₂ : Guarded (StaysQueued p) Step s op s₂) : s₁ = s₂ :=
  Option.some.inj (h₁.2.2.symm.trans h₂.2.2)

/-- **The interactivity bonus.** In a run of a task that stays on the runqueue, `sleep_avg` never
increases from one state to a later one iff no `setscheduler` call of the run credits the task. -/
theorem sleepAvg_antitone_iff {ops : List Op} (hrun : Run (Guarded (StaysQueued p) Step) s ops s') :
    (∀ before between after s₁ s₂, ops = before ++ between ++ after →
      Run (Guarded (StaysQueued p) Step) s before s₁ →
      Run (Guarded (StaysQueued p) Step) s₁ between s₂ →
      (s₂.task p).sleepAvg.toNat ≤ (s₁.task p).sleepAvg.toNat) ↔
    ∀ before op after s₁, ops = before ++ op :: after →
      Run (Guarded (StaysQueued p) Step) s before s₁ → ¬Credits p s₁ op :=
  Run.antitone_iff (m := fun s : Sys => (s.task p).sleepAvg.toNat) (C := Credits p)
    (fun _ _ _ _ => step_functional) (fun _ _ _ hstep => sleepAvg_step hstep.1 hstep.2) hrun

instance (s : Sys) (op : Op) : Decidable (StaysQueued p s op) :=
  decidable_of_iff (ClockForward s op ∧ op ≠ .tryToWakeUp p true ∧ op ≠ .tryToWakeUp p false ∧
    (s.task p).state = .running ∧ (s.task p).array ≠ none) <| by
  simp only [StaysQueued, Bool.forall_bool]
  tauto

/-- Two OTHER tasks on the runqueue. -/
def twoWaiting : Sys :=
  let task (pid : ℤ) : Task := { timeSlice := 15, pid := pid, array := some .arrays0, sleepAvg := 5 }
  ofList [task 1, task 2] 1

omit [Param] in
/-- The other task yields to task 2, which is reniced and runs for a jiffy. -/
theorem sleepAvg_antitone_iff_two :
    let ops : List Op := [.sysSchedYield, .setJiffies 10, .setUserNice 2 5, .schedulerTick]
    ∃ s', Run (Guarded (StaysQueued 2) (@Step hz100)) twoWaiting ops s' ∧
      (s'.task 2).sleepAvg.toNat ≤ (twoWaiting.task 2).sleepAvg.toNat := by
  intro ops
  have hruns : (@runIf hz100 (StaysQueued 2) _ ops twoWaiting).isSome = true := by decide +kernel
  obtain ⟨s', hs'⟩ := Option.isSome_iff_exists.mp hruns
  have hrun := (@guarded_run_iff_runIf hz100 _ _ _ _ _).mpr hs'
  refine ⟨s', hrun, ?_⟩
  have hcredits : ∀ op ∈ ops, ∀ s, ¬@Credits hz100 2 s op := by
    intro op hop s
    simp only [ops, List.mem_cons, List.not_mem_nil, or_false] at hop
    rcases hop with rfl | rfl | rfl | rfl <;> exact id
  have hnever := (@sleepAvg_antitone_iff hz100 _ _ _ _ hrun).mpr fun before op after s₁ hops _ =>
    hcredits op (hops ▸ List.mem_append_right _ List.mem_cons_self) s₁
  exact hnever [] ops [] twoWaiting s' (by simp) (Run.nil _) hrun

omit [Param] in
/-- Task 1 waits for a second while the other runs, and never sleeps. A call that leaves its
policy as it is gives it the bonus of a second's sleep. -/
theorem sleepAvg_increases : twoWaiting.RqInv ∧ twoWaiting.NoFlags ∧
    ∃ s', Run (Guarded (StaysQueued 1) (@Step hz100)) twoWaiting
        [.sysSchedYield, .setJiffies 100, .setscheduler 1 0 (.valid ⟨0, 0⟩)] s' ∧
      ¬(s'.task 1).sleepAvg.toNat ≤ (twoWaiting.task 1).sleepAvg.toNat := by
  refine ⟨rqInv_ofList (by decide) (by decide), noFlags_ofList (by decide), ?_⟩
  have hruns : ((@runIf hz100 (StaysQueued 1) _ [.sysSchedYield, .setJiffies 100,
      .setscheduler 1 0 (.valid ⟨0, 0⟩)] twoWaiting).map fun s => (s.task 1).sleepAvg) =
        some 105 := by
    decide +kernel
  obtain ⟨s', hs', havg⟩ := Option.map_eq_some_iff.mp hruns
  refine ⟨s', (@guarded_run_iff_runIf hz100 _ _ _ _ _).mpr hs', ?_⟩
  rw [havg]
  decide

end ShortSched
