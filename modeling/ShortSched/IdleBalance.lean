import ShortSched.LoadBalance

/-!
# What an idle CPU finds

`load_balance` measures a runqueue by `nr_running`, which counts all four arrays, and searches two
of them. Tasks that wait in `rt_short` or in `overdue` are never pulled.
-/

namespace ShortSched
namespace Smp

open General Sys

variable {s s' : Smp} {thisCpu other : ℕ}

/-- A task that moves changes its CPU. -/
theorem not_moved (hne : other ≠ thisCpu) (prev : ℕ → ℕ → ℤ) (p : TaskId) :
    ¬s.Moved other thisCpu p { s with prevNrRunning := prev } := by
  intro hp
  obtain ⟨array, hqueued⟩ := hp.leaves
  exact hne (hqueued.1.symm.trans hp.arrives.1)

/-- **An idle CPU pulls a waiting task** iff one waits in `active` or `expired` of the other
runqueue, or none waits in `rt_short` or `overdue` either. In both cases the runqueues stay in
order, and neither running tasks nor tasks that may not run here move. -/
theorem loadBalance_pulls_iff (hcpus : s.cpuLogicalMap = [thisCpu, other] ∨
      s.cpuLogicalMap = [other, thisCpu]) (hne : other ≠ thisCpu) (hthis : s.RqInv thisCpu)
    (hother : s.RqInv other) (hflags : s.NoFlags) (hidle : (s.runqueues thisCpu).nrRunning = 0)
    (hmany : 2 ≤ (s.runqueues other).nrRunning) :
    ∃ s', loadBalance thisCpu true s = some s' ∧ s'.RqInv thisCpu ∧ s'.RqInv other ∧
      (∀ t, t = (s.runqueues thisCpu).curr ∨ t = (s.runqueues other).curr ∨
          (s.task t).cpusAllowed &&& ((1 : UInt32) <<< UInt32.ofNat thisCpu) = 0 →
        (s'.task t).cpu = (s.task t).cpu ∧ (s'.task t).array = (s.task t).array) ∧
      (((∃ array p, s.QueuedIn other array p ∧ s.CanMigrateTask p other thisCpu) →
          ∃ p, s.Moved other thisCpu p s') ↔
        (∃ array p, s.Reachable other thisCpu array p) ∨
          ∀ array p, array = (s.runqueues other).rtShort ∨ array = (s.runqueues other).overdue →
            s.QueuedIn other array p → ¬s.CanMigrateTask p other thisCpu) := by
  obtain ⟨prev, hcall⟩ := loadBalance_idle hcpus hne hother hidle hmany
  have hthis₁ : RqInv { s with prevNrRunning := prev } thisCpu :=
    hthis.sameQueues (.prevNrRunning prev)
  have hother₁ : RqInv { s with prevNrRunning := prev } other :=
    hother.sameQueues (.prevNrRunning prev)
  rcases hcall with ⟨array, p, hreach, hcall⟩ | ⟨hnone, hcall⟩
  · -- the search ends at `p`
    obtain ⟨hthis', hother', hmoved⟩ := moved_pullTask hne hthis₁ hother₁ hflags hreach
    refine ⟨_, hcall, hthis', hother', fun t ht => hmoved.others t ?_, iff_of_true
      (fun _ => ⟨p, hmoved.leaves, hmoved.can, hmoved.arrives, hmoved.others⟩)
      (.inl ⟨array, p, hreach⟩)⟩
    obtain ⟨-, hqueued, -, hcurr, hallowed⟩ := hreach
    rintro rfl
    rcases ht with ht | ht | ht
    · have hcpu := hthis.curr_cpu
      rw [← ht] at hcpu
      exact hne (hqueued.1.symm.trans hcpu)
    · exact hcurr ht
    · exact hallowed ht
  · -- nothing moves
    refine ⟨_, hcall, hthis₁, hother₁, fun _ _ => ⟨rfl, rfl⟩, ?_⟩
    constructor
    · intro hpulls
      refine .inr fun array p _ hqueued hcan => ?_
      obtain ⟨q, hq⟩ := hpulls ⟨array, p, hqueued, hcan⟩
      exact not_moved hne prev q hq
    · rintro (⟨array, p, hreach⟩ | hrest) ⟨array', p', hqueued, hcan⟩
      · exact absurd hreach (hnone array p)
      · rcases (s.runqueues other).array_cases array' with h | h | h | h
        · exact absurd ⟨.inr h, hqueued, hcan⟩ (hnone array' p')
        · exact absurd ⟨.inl h, hqueued, hcan⟩ (hnone array' p')
        · exact absurd hcan (hrest array' p' (.inl h) hqueued)
        · exact absurd hcan (hrest array' p' (.inr h) hqueued)

/-! ## Two CPUs -/

/-- Two CPUs with the idle tasks 0 and 1. The listed tasks are numbered from 2 on and queued by
their fields. All other structures are unused. -/
def ofList (ts : List Task) (curr : ℕ → TaskId) : Smp :=
  let task (t : TaskId) : Task := (idleTask :: { idleTask with cpu := 1 } :: ts).getD t
    (sleepingTask t)
  let own (cpu : ℕ) (t : TaskId) : Task :=
    if (task t).cpu = cpu then task t else { task t with array := none }
  let tasklist := List.range' 2 ts.length
  { task := task
    runqueues := fun cpu => { (ofTasks (own cpu) tasklist (curr cpu)).rq with idle := cpu }
    prevNrRunning := fun _ _ => 0
    jiffies := 10
    tasklist := tasklist
    cpuLogicalMap := [0, 1]
    cacheDecayTicks := 1 }

/-- A task other than the idle tasks is listed or sleeps. -/
theorem ofList_task (ts : List Task) (curr : ℕ → TaskId) (t : TaskId) :
    (t = 0 ∧ (ofList ts curr).task t = idleTask) ∨
      (t = 1 ∧ (ofList ts curr).task t = { idleTask with cpu := 1 }) ∨
      ((ofList ts curr).task t ∈ ts ∧ t ∈ (ofList ts curr).tasklist) ∨
      (ofList ts curr).task t = sleepingTask t := by
  match t with
  | 0 => exact .inl ⟨rfl, rfl⟩
  | 1 => exact .inr (.inl ⟨rfl, rfl⟩)
  | i + 2 =>
    have htask : (ofList ts curr).task (i + 2) = ts.getD i (sleepingTask (i + 2 : ℕ)) := rfl
    by_cases hi : i < ts.length
    · rw [List.getD_eq_getElem _ _ hi] at htask
      have hlt : i + 2 < 2 + ts.length := Nat.add_comm i 2 ▸ Nat.add_lt_add_left hi 2
      have hmem : i + 2 ∈ List.range' 2 ts.length :=
        List.mem_range'_1.mpr ⟨Nat.le_add_left 2 i, hlt⟩
      exact .inr (.inr (.inl ⟨htask ▸ List.getElem_mem hi, hmem⟩))
    · exact .inr (.inr (.inr (htask.trans (List.getD_eq_default _ _ (not_lt.mp hi)))))

/-- What holds of the listed tasks, of the idle tasks and of tasks that sleep holds of all. -/
theorem ofList_forall {P : Task → Prop} {ts : List Task}
    (hidle : ∀ cpu, P { idleTask with cpu := cpu }) (hsleeps : ∀ pid, P (sleepingTask pid))
    (hlisted : ∀ t ∈ ts, P t) (curr : ℕ → TaskId) (t : TaskId) : P ((ofList ts curr).task t) := by
  rcases ofList_task ts curr t with ⟨-, h⟩ | ⟨-, h⟩ | ⟨h, -⟩ | h
  · rw [h]
    exact hidle 0
  · rw [h]
    exact hidle 1
  · exact hlisted _ h
  · rw [h]
    exact hsleeps t

/-- **The invariant holds** of a CPU whose tasks are valid and fit their arrays. -/
theorem rqInv_ofList {ts : List Task} {curr : ℕ → TaskId} {cpu : ℕ}
    (hidle : (ofList ts curr).task cpu = { idleTask with cpu := cpu })
    (hcurr : ((ofList ts curr).task (curr cpu)).cpu = cpu)
    (htasks : ∀ t ∈ ts, TaskInv ((ofList ts curr).runqueues cpu).toRqPtrs t) :
    (ofList ts curr).RqInv cpu := by
  have hok : TaskOk (sleepingTask 0).toTaskSched := by decide
  have hqueued : ∀ t, (((ofList ts curr).ownRq cpu).task t).array ≠ none →
      (ofList ts curr).task t ∈ ts ∧ t ∈ (ofList ts curr).tasklist := by
    intro t ht
    obtain ⟨array, harray⟩ := Option.ne_none_iff_exists'.mp ht
    have hset := (ownRq_array.mp harray).2
    rcases ofList_task ts curr t with ⟨-, h⟩ | ⟨-, h⟩ | h | h
    · rw [h] at hset
      cases hset
    · rw [h] at hset
      cases hset
    · exact h
    · rw [h] at hset
      cases hset
  have hrange : ∀ t, (((ofList ts curr).ownRq cpu).task t).array ≠ none →
      0 ≤ (((ofList ts curr).ownRq cpu).task t).prio ∧
        (((ofList ts curr).ownRq cpu).task t).prio < maxPrio := by
    intro t ht
    rw [ownRq_sched]
    exact (htasks _ (hqueued t ht).1).ok.range
  have hlayout : (ofTasks ((ofList ts curr).ownRq cpu).task (ofList ts curr).tasklist
      (curr cpu)).Layout :=
    layout_ofTasks List.nodup_range' (fun t ht => (hqueued t ht).2) hrange
  refine ⟨hlayout.congr rfl (fun _ => rfl) fun _ _ => rfl, length_filter_array _, ?_, ?_, ?_,
    hcurr, fun t hcpu ht => ?_⟩
  · exact congrArg Task.array hidle
  · exact congrArg (fun t : Task => t.state) hidle
  · exact congrArg (fun t : Task => t.prio) hidle
  · rcases ofList_task ts curr t with ⟨rfl, h⟩ | ⟨rfl, h⟩ | h | h
    · rw [h] at hcpu
      exact absurd hcpu ht
    · rw [h] at hcpu
      exact absurd hcpu ht
    · exact htasks _ h.1
    · rw [h]
      exact ⟨hok, nofun⟩

/-- CPU 0 is idle. Task 2 runs on CPU 1 and task 3 waits for it. -/
def oneWaits (array : PrioArrayPtr) (policy : Policy) : Smp :=
  let task (pid : ℤ) : Task :=
    { timeSlice := 15, requestedTime := 15, pid := pid, cpu := 1, policy := policy,
      array := some array }
  ofList [task 2, task 3] fun cpu => 2 * cpu

/-- Two OTHER tasks: the one that waits is pulled. -/
theorem loadBalance_pulls_other :
    let s := oneWaits .arrays0 .other
    ∃ s', loadBalance 0 true s = some s' ∧ s'.RqInv 0 ∧ s'.RqInv 1 ∧ ∃ p, s.Moved 1 0 p s' := by
  intro s
  have hthis : s.RqInv 0 := rqInv_ofList rfl rfl (by decide)
  have hother : s.RqInv 1 := rqInv_ofList rfl rfl (by decide)
  have hflags : s.NoFlags := ofList_forall (P := fun t => t.justGotForked = 0) (fun _ => rfl)
    (fun _ => rfl) (by decide) _
  obtain ⟨s', hcall, hthis', hother', -, hpulls⟩ :=
    loadBalance_pulls_iff (s := s) (.inl rfl) (by decide) hthis hother hflags rfl (by decide)
  have hqueued : s.QueuedIn 1 .arrays0 3 := ⟨rfl, rfl⟩
  have hcan : s.CanMigrateTask 3 1 0 := by decide
  exact ⟨s', hcall, hthis', hother',
    hpulls.mpr (.inl ⟨.arrays0, 3, .inr rfl, hqueued, hcan⟩) ⟨.arrays0, 3, hqueued, hcan⟩⟩

/-- Two SHORT tasks: the one that waits stays, and the CPU stays idle. -/
theorem loadBalance_leaves_short :
    let s := oneWaits .shortArrays0 .short
    s.RqInv 0 ∧ s.RqInv 1 ∧ s.NoFlags ∧ (s.runqueues 0).nrRunning = 0 ∧
      (s.runqueues 1).nrRunning = 2 ∧ s.QueuedIn 1 (s.runqueues 1).rtShort 3 ∧
      s.CanMigrateTask 3 1 0 ∧
      ∃ s', loadBalance 0 true s = some s' ∧ ¬∃ p, s.Moved 1 0 p s' := by
  intro s
  have hthis : s.RqInv 0 := rqInv_ofList rfl rfl (by decide)
  have hother : s.RqInv 1 := rqInv_ofList rfl rfl (by decide)
  have hflags : s.NoFlags := ofList_forall (P := fun t => t.justGotForked = 0) (fun _ => rfl)
    (fun _ => rfl) (by decide) _
  refine ⟨hthis, hother, hflags, rfl, rfl, ⟨rfl, rfl⟩, by decide, ?_⟩
  have harray : ∀ t, (s.task t).array ≠ some .arrays0 ∧ (s.task t).array ≠ some .arrays1 :=
    ofList_forall (P := fun t => t.array ≠ some .arrays0 ∧ t.array ≠ some .arrays1)
      (fun _ => ⟨nofun, nofun⟩) (fun _ => ⟨nofun, nofun⟩) (by decide) _
  have hnone : ∀ array p, ¬s.Reachable 1 0 array p := by
    rintro array p ⟨rfl | rfl, hqueued, -⟩
    · exact (harray p).2 hqueued.2
    · exact (harray p).1 hqueued.2
  obtain ⟨prev, hcall⟩ := loadBalance_idle (s := s) (.inl rfl) (by decide) hother rfl (by decide)
  rcases hcall with ⟨array, p, hreach, -⟩ | ⟨-, hcall⟩
  · exact absurd hreach (hnone array p)
  · refine ⟨_, hcall, ?_⟩
    rintro ⟨p, hp⟩
    exact not_moved (by decide) prev p hp

end Smp
end ShortSched
