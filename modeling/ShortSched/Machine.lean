import ShortSched.General.Runs
import ShortSched.Fork

/-!
# The machine as a transition system

A step is one function of the kernel that runs to its end without being interrupted, or one
move of its environment: a task sets its own state before it sleeps, a signal arrives, the
clock advances, a task exits. The kernel is not preemptive: between `doFork`, `doForkSplit` and
`doForkWake` only interrupts run, that is ticks and wake-ups.
-/

namespace ShortSched

open General

inductive Op
  | tryToWakeUp (p : TaskId) (sync : Bool)
  | schedule
  | schedulerTick
  | setUserNice (p : TaskId) (nice : ℤ)
  | setscheduler (pid policy : ℤ) (param : UserParam)
  | sysSchedYield
  | doFork (cloneFlags : UInt32) (env : ForkEnv)
  | doForkSplit
  | doForkWake
  | vforkReturn
  /-- `current` reaps its zombie child `p`: `sched_exit`, then the structure is freed -/
  | schedExit (p : TaskId)
  /-- `current` exits: its children go to `reaper` and it becomes a zombie -/
  | doExit (reaper : TaskId)
  | setCurrentState (state : TaskState)
  | setSigpending (p : TaskId) (pending : Bool)
  | setJiffies (jiffies : UInt32)
deriving DecidableEq

namespace Op

/-- Operations of `current` in process context need a task other than the idle task that is
not inside `do_fork`. -/
abbrev InProcess (s : Sys) : Prop := s.forking = none ∧ s.rq.curr ≠ s.rq.idle

/-- `alloc_task_struct` returns a structure that no task uses. -/
structure FreshTask (s : Sys) (p : TaskId) : Prop where
  not_listed : p ∉ s.tasklist
  ne_idle : p ≠ s.rq.idle
  ne_curr : p ≠ s.rq.curr
  not_queued : (s.task p).array = none

/-- The structure `p` is the copy that `do_fork` made of `current`, which may have used up its SHORT
or its overdue time since. In a run that starts outside of `do_fork` this is always so
(`copiedTask_of_run`). -/
structure CopiedTask (s : Sys) (p : TaskId) : Prop where
  not_listed : p ∉ s.tasklist
  ne_idle : p ≠ s.rq.idle
  ne_curr : p ≠ s.rq.curr
  policy : s.current.policy = .short → (s.task p).policy = .short
  short : s.current.ShortTask → (s.task p).ShortTask

/-- When an operation can be taken. The idle task is never the target of one. -/
def Enabled (s : Sys) : Op → Prop
  | tryToWakeUp p _ => p ∈ s.tasklist ∧ p ≠ s.rq.idle
  | schedule => s.forking = none
  | schedulerTick => True
  | setUserNice p _ => s.forking = none ∧ p ∈ s.tasklist ∧ p ≠ s.rq.idle
  | setscheduler pid _ _ => s.forking = none ∧ s.findProcessByPid pid ≠ some s.rq.idle
  | sysSchedYield => InProcess s
  | doFork _ env => InProcess s ∧ FreshTask s env.child
  | doForkSplit => s.rq.curr ≠ s.rq.idle ∧ ∃ f ∈ s.forking, f.split = false ∧ CopiedTask s f.child
  | doForkWake => ∃ f ∈ s.forking, f.split = true
  | vforkReturn => InProcess s
  | schedExit p => InProcess s ∧ p ∈ s.tasklist ∧ p ≠ s.rq.idle ∧ p ≠ s.rq.curr ∧
      (s.task p).state = .zombie ∧ (s.task p).array = none
  | doExit reaper => InProcess s ∧ reaper ≠ s.rq.curr
  | setCurrentState state => InProcess s ∧ state ≠ .zombie
  | setSigpending p _ => p ∈ s.tasklist
  | setJiffies _ => True

instance (s : Sys) (p : TaskId) : Decidable (FreshTask s p) :=
  decidable_of_iff (p ∉ s.tasklist ∧ p ≠ s.rq.idle ∧ p ≠ s.rq.curr ∧ (s.task p).array = none)
    ⟨fun h => ⟨h.1, h.2.1, h.2.2.1, h.2.2.2⟩, fun h => ⟨h.1, h.2, h.3, h.4⟩⟩

instance (s : Sys) (p : TaskId) : Decidable (CopiedTask s p) :=
  decidable_of_iff (p ∉ s.tasklist ∧ p ≠ s.rq.idle ∧ p ≠ s.rq.curr ∧
      (s.current.policy = .short → (s.task p).policy = .short) ∧
      (s.current.ShortTask → (s.task p).ShortTask))
    ⟨fun h => ⟨h.1, h.2.1, h.2.2.1, h.2.2.2.1, h.2.2.2.2⟩, fun h => ⟨h.1, h.2, h.3, h.4, h.5⟩⟩

instance (s : Sys) (op : Op) : Decidable (op.Enabled s) := by
  cases op <;> unfold Enabled <;> infer_instance

variable [Param]

/-- What an operation does; `none` is an oops. -/
def exec : Op → Sys → Option Sys
  | tryToWakeUp p sync, s => some (s.tryToWakeUp p sync).2
  | schedule, s => s.schedule
  | schedulerTick, s => some s.schedulerTick
  | setUserNice p nice, s => some (s.setUserNice p nice)
  | setscheduler pid policy param, s => (s.setscheduler pid policy param).map Prod.snd
  | sysSchedYield, s => s.sysSchedYield
  | doFork cloneFlags env, s => some (s.doFork cloneFlags env).2
  | doForkSplit, s => s.doForkSplit
  | doForkWake, s => s.doForkWake
  | vforkReturn, s => some s.vforkReturn
  | schedExit p, s => some { s.schedExit p with tasklist := s.tasklist.erase p }
  | doExit reaper, s => some <|
      let s := { s with task := fun t =>
        if (s.task t).pOpptr = s.rq.curr then { s.task t with pOpptr := reaper } else s.task t }
      s.modify s.rq.curr fun t => { t with state := .zombie }
  | setCurrentState state, s => some (s.modify s.rq.curr fun t => { t with state := state })
  | setSigpending p pending, s => some (s.modify p fun t => { t with sigpending := pending })
  | setJiffies jiffies, s => some { s with jiffies := jiffies }

end Op

variable [Param]

/-- One step of the machine. -/
def Step (s : Sys) (op : Op) (s' : Sys) : Prop := op.Enabled s ∧ op.exec s = some s'

/-- The state after a list of operations, if each of them can be taken. -/
def runOps : List Op → Sys → Option Sys
  | [], s => some s
  | op :: ops, s => if op.Enabled s then op.exec s >>= runOps ops else none

theorem run_iff_runOps {s s' : Sys} {ops : List Op} :
    Run Step s ops s' ↔ runOps ops s = some s' := by
  induction ops generalizing s with
  | nil =>
    rw [Run.nil_iff, runOps, Option.some.injEq, eq_comm]
  | cons op ops ih =>
    rw [Run.cons_iff, runOps]
    simp only [Step, ih, and_assoc]
    by_cases hen : op.Enabled s
    · simp [hen, Option.bind_eq_some_iff]
    · simp [hen]

theorem runOps_single {s s' : Sys} {op : Op} : runOps [op] s = some s' ↔ Step s op s' := by
  rw [← run_iff_runOps, Run.single_iff]

/-- The state after a list of operations each of which can be taken and meets `G`. -/
def runIf (G : Sys → Op → Prop) [∀ s op, Decidable (G s op)] : List Op → Sys → Option Sys
  | [], s => some s
  | op :: ops, s => if G s op ∧ op.Enabled s then op.exec s >>= runIf G ops else none

theorem guarded_run_iff_runIf {G : Sys → Op → Prop} [∀ s op, Decidable (G s op)] {s s' : Sys}
    {ops : List Op} : Run (Guarded G Step) s ops s' ↔ runIf G ops s = some s' := by
  induction ops generalizing s with
  | nil =>
    rw [Run.nil_iff, runIf, Option.some.injEq, eq_comm]
  | cons op ops ih =>
    rw [Run.cons_iff, runIf]
    simp only [Guarded, Step, ih, and_assoc]
    by_cases hen : G s op ∧ op.Enabled s
    · simp [hen, Option.bind_eq_some_iff]
    · rw [if_neg hen]
      constructor
      · rintro ⟨s₁, hG, hop, -⟩
        exact absurd ⟨hG, hop⟩ hen
      · intro h
        cases h

/-- A step that meets `G`, with a history variable next to the state. -/
def stepIf {γ : Type} (G : Sys × γ → Op → Prop) [∀ x op, Decidable (G x op)]
    (upd : Sys → Op → γ → γ) (x : Sys × γ) (op : Op) : Option (Sys × γ) :=
  if G x op ∧ op.Enabled x.1 then (op.exec x.1).map fun s => (s, upd x.1 op x.2) else none

theorem guarded_ghost_run_iff {γ : Type} {G : Sys × γ → Op → Prop} [∀ x op, Decidable (G x op)]
    {upd : Sys → Op → γ → γ} {x y : Sys × γ} {ops : List Op} :
    Run (Guarded G (Ghost Step upd)) x ops y ↔ runWith (stepIf G upd) ops x = some y := by
  apply run_iff_runWith
  rintro x op ⟨s, g⟩
  unfold stepIf
  by_cases hen : G x op ∧ op.Enabled x.1
  · rw [if_pos hen, Option.map_eq_some_iff]
    constructor
    · rintro ⟨-, ⟨-, hexec⟩, hg⟩
      exact ⟨s, hexec, by rw [← hg]⟩
    · rintro ⟨s', hexec, heq⟩
      obtain ⟨rfl, rfl⟩ := Prod.mk.inj heq
      exact ⟨hen.1, ⟨hen.2, hexec⟩, rfl⟩
  · rw [if_neg hen]
    constructor
    · rintro ⟨hG, ⟨hop, -⟩, -⟩
      exact absurd ⟨hG, hop⟩ hen
    · intro h
      cases h

end ShortSched
