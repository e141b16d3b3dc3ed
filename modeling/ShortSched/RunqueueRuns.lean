import ShortSched.OfTasks
import ShortSched.InvariantSteps
import ShortSched.StepTheorems

/-!
# The representation invariant over runs

Wake-ups, `schedule`, ticks, `set_user_nice`, `setscheduler` and `sys_sched_yield`, in any
order and with sleeps, signals and clock changes between them, keep the runqueue in order and
never run into an oops.
-/

namespace ShortSched

open General Sys

/-- The operations of the scheduler proper and the moves of its environment: no task is
created and none exits. -/
def Op.InScheduler : Op → Prop
  | .doFork .. | .doForkSplit | .doForkWake | .vforkReturn | .schedExit _ | .doExit _ => False
  | _ => True

instance : DecidablePred Op.InScheduler
  | .doFork .. | .doForkSplit | .doForkWake | .vforkReturn | .schedExit _ | .doExit _ =>
    inferInstanceAs (Decidable False)
  | .tryToWakeUp .. | .schedule | .schedulerTick | .setUserNice .. | .setscheduler ..
  | .sysSchedYield | .setCurrentState _ | .setSigpending .. | .setJiffies _ =>
    inferInstanceAs (Decidable True)

variable [Param] {s s' : Sys} {op : Op}

theorem Sys.NoFlags.step (h : s.NoFlags) (hop : op.InScheduler) (hstep : Step s op s') :
    s'.NoFlags := by
  intro t
  refine justGotForked_step hstep ?_ ?_ ?_ (h t)
  · rintro cloneFlags env rfl
    exact hop
  · rintro rfl
    exact hop
  · rintro rfl
    exact hop

/-- **One step.** An operation that can be taken has a next state, and keeps the invariant. -/
theorem Sys.RqInv.exec (h : s.RqInv) (hflags : s.NoFlags) (hop : op.InScheduler)
    (hen : op.Enabled s) : ∃ s', op.exec s = some s' ∧ s'.RqInv := by
  have hbranch : ∀ p, ¬s.ForkBranch p := fun p hc => hc.2.1 (hflags _)
  cases op with
  | tryToWakeUp p sync =>
    exact ⟨_, rfl, h.tryToWakeUp hen.2 sync fun _ => forkFits_of_not_forkBranch (hbranch p)⟩
  | schedule =>
    obtain ⟨s', hs', -⟩ := schedule_returns h.toRqAgree h.idle_runs
    exact ⟨s', hs', h.schedule hs'⟩
  | schedulerTick => exact ⟨_, rfl, h.schedulerTick⟩
  | setUserNice p nice => exact ⟨_, rfl, h.setUserNice hen.2.2 nice (hbranch p)⟩
  | setscheduler pid policy param =>
    obtain ⟨⟨r, s'⟩, hcall, -⟩ := setscheduler_cases s pid policy param
    exact ⟨s', by rw [Op.exec, hcall]; rfl, h.setscheduler hflags hen.2 hcall⟩
  | sysSchedYield => exact h.sysSchedYield hen.2
  | setCurrentState state =>
    have hsame : SameTasks s (s.modify s.rq.curr fun t => { t with state := state }) :=
      .setState _ _ _
    refine ⟨_, rfl, h.sameTasks hsame rfl ?_⟩
    rw [modify_task, Function.update_of_ne (Ne.symm hen.1.2)]
  | setSigpending p pending =>
    have hsame : SameTasks s (s.modify p fun t => { t with sigpending := pending }) :=
      .modify rfl rfl rfl rfl
    exact ⟨_, rfl, h.sameTasks hsame rfl (modify_proj (fun t => t.state) rfl _)⟩
  | setJiffies jiffies =>
    have hsame : SameTasks s { s with jiffies := jiffies } := .of_task rfl
    exact ⟨_, rfl, h.sameTasks hsame rfl rfl⟩
  | doFork | doForkSplit | doForkWake | vforkReturn | schedExit | doExit => exact absurd hop id

/-- What a step of the scheduler preserves. -/
theorem Sys.RqInv.step_inScheduler (h : s.RqInv ∧ s.NoFlags) (hop : op.InScheduler)
    (hstep : Step s op s') : s'.RqInv ∧ s'.NoFlags := by
  obtain ⟨s₁, hs₁, hinv⟩ := h.1.exec h.2 hop hstep.1
  rw [hstep.2] at hs₁
  rw [← Option.some.inj hs₁] at hinv
  exact ⟨hinv, h.2.step hop hstep⟩

/-- **Every run** of the scheduler keeps the representation invariant, and from every state it
reaches each operation that can be taken comes to its end. -/
theorem rqInv_of_run {ops : List Op} (hinv : s.RqInv) (hflags : s.NoFlags)
    (hops : ∀ op ∈ ops, op.InScheduler) (hrun : Run Step s ops s') :
    s'.RqInv ∧ s'.NoFlags ∧
      ∀ op : Op, op.InScheduler → op.Enabled s' → ∃ s'', Step s' op s'' := by
  have hend : s'.RqInv ∧ s'.NoFlags := by
    induction hrun with
    | nil => exact ⟨hinv, hflags⟩
    | cons step _ ih =>
      have hnext := Sys.RqInv.step_inScheduler ⟨hinv, hflags⟩ (hops _ List.mem_cons_self) step
      exact ih hnext.1 hnext.2 fun op hop => hops op (List.mem_cons_of_mem _ hop)
  refine ⟨hend.1, hend.2, fun op hop hen => ?_⟩
  obtain ⟨s'', hs'', -⟩ := hend.1.exec hend.2 hop hen
  exact ⟨s'', hen, hs''⟩

omit [Param] in
/-- A task is made SHORT, woken, picked and ticked, and the other one is reniced. -/
theorem rqInv_of_run_short :
    let ts : List Task := [{ timeSlice := 15, pid := 1, array := some .arrays0 },
      { timeSlice := 15, pid := 2, state := .interruptible }]
    let ops : List Op := [.setscheduler 2 5 (.valid ⟨0, 1000⟩), .tryToWakeUp 2 false, .schedule,
      .schedulerTick, .setUserNice 1 5]
    ∃ s', @runOps hz100 ops (ofList ts 1) = some s' ∧ s'.RqInv ∧ s'.NoFlags := by
  intro ts ops
  have hruns : (@runOps hz100 ops (ofList ts 1)).isSome = true := by decide +kernel
  obtain ⟨s', hs'⟩ := Option.isSome_iff_exists.mp hruns
  have hrun := (@run_iff_runOps hz100 _ _ _).mpr hs'
  obtain ⟨hinv, hflags, -⟩ := @rqInv_of_run hz100 _ _ _ (rqInv_ofList (by decide) (by decide))
    (noFlags_ofList (by decide)) (by decide) hrun
  exact ⟨s', hs', hinv, hflags⟩

end ShortSched
