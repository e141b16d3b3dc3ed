import ShortSched.SchedulingOrder
import ShortSched.Smp

/-!
# What `load_balance` does for an idle CPU

The search looks at `expired` and at `active` of the busiest runqueue and ends at the first task
that may be migrated. The pull takes the task through one half of a move on either runqueue, so
that the representation invariants of both are kept.
-/

namespace ShortSched
namespace Smp

open General Sys

variable {s s' : Smp} {busiest thisCpu cpu : ℕ} {array : PrioArrayPtr} {p t : TaskId}

/-! ## The search -/

/-- The search of a queue ends at the first task from its tail that may be migrated. -/
theorem skipQueue_idle (tasks : List TaskId) (imbalance : ℤ) (s : Smp) :
    skipQueue busiest thisCpu true array tasks imbalance s =
      match tasks.find? fun p => s.CanMigrateTask p busiest thisCpu with
      | some p => .outUnlock (s.pullTask p array busiest thisCpu)
      | none => .goOn imbalance s := by
  induction tasks with
  | nil => rfl
  | cons tmp rest ih =>
    rw [skipQueue]
    by_cases hcan : s.CanMigrateTask tmp busiest thisCpu
    · rw [if_neg (not_not.mpr hcan), List.find?_cons_of_pos (by simpa using hcan)]
      rfl
    · rw [if_pos hcan, List.find?_cons_of_neg (by simpa using hcan), ih]

/-- The outcome of a search through the tasks `seen` of an array. -/
inductive Searched (s : Smp) (busiest thisCpu : ℕ) (array : PrioArrayPtr) (imbalance : ℤ)
    (seen : TaskId → Prop) : Search → Prop
  | pulled (p : TaskId) (hseen : seen p) (hcan : s.CanMigrateTask p busiest thisCpu) :
      Searched s busiest thisCpu array imbalance seen
        (.outUnlock (s.pullTask p array busiest thisCpu))
  | nothing (h : ∀ p, seen p → ¬s.CanMigrateTask p busiest thisCpu) :
      Searched s busiest thisCpu array imbalance seen (.goOn imbalance s)

/-- The queues below the one that the bitmap names are empty. -/
theorem nextBit_spec {bitmap : ℤ → Bool} {idx next : ℤ} (hidx : 0 ≤ idx ∧ idx ≤ maxPrio)
    (hnext : (if idx = 0 then schedFindFirstBit bitmap else findNextBit bitmap idx) = next) :
    (idx ≤ next ∧ next ≤ maxPrio) ∧ (∀ k, idx ≤ k → k < next → bitmap k = false) ∧
      (next < maxPrio → bitmap next = true) := by
  have hfind : next = findBit bitmap idx (maxPrio - idx).toNat := by
    rw [← hnext]
    split
    · next h =>
      rw [h]
      rfl
    · rfl
  obtain ⟨hge, hle, hlow, hset⟩ := findBit_spec bitmap idx (maxPrio - idx).toNat
  have hend : idx + ((maxPrio - idx).toNat : ℤ) = maxPrio := by omega
  rw [hend] at hle hset
  rw [hfind]
  exact ⟨⟨hge, hle⟩, hlow, hset⟩

/-- The bitmap of an array names its queues. -/
def BitmapOk (s : Smp) (cpu : ℕ) (array : PrioArrayPtr) : Prop :=
  ∀ k, 0 ≤ k → k < maxPrio →
    (((s.runqueues cpu).arrays array).bitmap k = true ↔
      ((s.runqueues cpu).arrays array).queue k ≠ [])

/-- The search of one array for an idle CPU, from any level on. -/
theorem skipBitmap_idle (hbitmap : s.BitmapOk busiest array) (thisCpu : ℕ) (imbalance : ℤ) (n : ℕ)
    (idx : ℤ) (hidx : 0 ≤ idx ∧ idx ≤ maxPrio) (hn : maxPrio < idx + n) :
    ∃ r, skipBitmap busiest thisCpu true array n idx imbalance s = some r ∧
      Searched s busiest thisCpu array imbalance (fun p => ∃ k, (idx ≤ k ∧ k < maxPrio) ∧
        p ∈ ((s.runqueues busiest).arrays array).queue k) r := by
  induction n generalizing idx with
  | zero => omega
  | succ n ih =>
    rw [skipBitmap]
    generalize hnext : (if idx = 0 then _ else _) = next
    obtain ⟨⟨hge, hle⟩, hlow, hset⟩ := nextBit_spec hidx hnext
    -- nothing waits below `next`
    have hempty : ∀ k, idx ≤ k → k < next →
        ((s.runqueues busiest).arrays array).queue k = [] := by
      intro k hk hlt
      have hbit := hlow k hk hlt
      by_contra hne
      rw [(hbitmap k (by omega) (by omega)).mpr hne] at hbit
      cases hbit
    by_cases hend : next = maxPrio
    · refine ⟨_, if_pos hend, .nothing ?_⟩
      rintro p ⟨k, ⟨hk, hlt⟩, hp⟩
      rw [hempty k hk (by omega)] at hp
      cases hp
    rw [if_neg hend]
    have hqueue : ((s.runqueues busiest).arrays array).queue next ≠ [] :=
      (hbitmap next (by omega) (by omega)).mp (hset (by omega))
    obtain ⟨curr, rest, hrev⟩ :=
      List.exists_cons_of_ne_nil (List.reverse_eq_nil_iff.not.mpr hqueue)
    have hmem : ∀ p, p ∈ curr :: rest ↔ p ∈ ((s.runqueues busiest).arrays array).queue next := by
      intro p
      rw [← hrev, List.mem_reverse]
    rw [hrev]
    dsimp only
    rw [skipQueue_idle]
    cases hfind : (curr :: rest).find? fun p => s.CanMigrateTask p busiest thisCpu with
    | some p =>
      have hcan := List.find?_some hfind
      refine ⟨_, rfl, .pulled p ⟨next, ⟨hge, by omega⟩, ?_⟩ (of_decide_eq_true hcan)⟩
      exact (hmem p).mp (List.mem_of_find?_eq_some hfind)
    | none =>
      obtain ⟨r, hr, hsearched⟩ := ih (next + 1) (by omega) (by omega)
      refine ⟨r, hr, ?_⟩
      cases hsearched with
      | pulled p hseen hcan =>
        obtain ⟨k, hk, hp⟩ := hseen
        exact .pulled p ⟨k, ⟨by omega, hk.2⟩, hp⟩ hcan
      | nothing hnone =>
        refine .nothing ?_
        rintro p ⟨k, ⟨hk, hlt⟩, hp⟩
        rcases lt_trichotomy k next with hbelow | rfl | habove
        · rw [hempty k hk hbelow] at hp
          cases hp
        · have hnot := List.find?_eq_none.mp hfind p ((hmem p).mpr hp)
          simpa using hnot
        · exact hnone p ⟨k, ⟨by omega, hlt⟩, hp⟩

/-! ## The representation invariant of one CPU's runqueue -/

/-- What CPU `cpu` owns of the machine: only its own tasks are queued in its runqueue. -/
def ownRq (cpu : ℕ) (s : Smp) : Sys :=
  { s.cpuRq cpu with
    task := fun t => if (s.task t).cpu = cpu then s.task t else { s.task t with array := none } }

/-- The representation invariant of `cpu_rq(cpu)`. It is that of a single CPU, but for `current`,
which is no longer queued when `schedule` calls `load_balance`. -/
structure RqInv (s : Smp) (cpu : ℕ) : Prop where
  layout : (s.ownRq cpu).Layout
  nrRunning : (s.runqueues cpu).nrRunning = ∑ array, (s.ownRq cpu).nrActives array
  idle_array : (s.task (s.runqueues cpu).idle).array = none
  idle_runs : (s.task (s.runqueues cpu).idle).state = .running
  idle_prio : (s.task (s.runqueues cpu).idle).prio = maxPrio
  curr_cpu : (s.task (s.runqueues cpu).curr).cpu = cpu
  tasks : ∀ t, (s.task t).cpu = cpu → t ≠ (s.runqueues cpu).idle →
    TaskInv (s.runqueues cpu).toRqPtrs (s.task t)

def NoFlags (s : Smp) : Prop := ∀ t, (s.task t).justGotForked = 0

/-- The task waits or runs in an array of the CPU's runqueue. -/
abbrev QueuedIn (s : Smp) (cpu : ℕ) (array : PrioArrayPtr) (t : TaskId) : Prop :=
  (s.task t).cpu = cpu ∧ (s.task t).array = some array

theorem ownRq_array : ((s.ownRq cpu).task t).array = some array ↔ s.QueuedIn cpu array t := by
  show (if _ then _ else _ : Task).array = _ ↔ _
  split
  · next h => exact (and_iff_right h).symm
  · next h => exact iff_of_false nofun fun hq => h hq.1

theorem ownRq_sched (cpu : ℕ) (s : Smp) (t : TaskId) :
    ((s.ownRq cpu).task t).toTaskSched = (s.task t).toTaskSched := by
  show (if _ then _ else _ : Task).toTaskSched = _
  split <;> rfl

namespace RqInv

theorem mem_queue (h : s.RqInv cpu) {k : ℤ} :
    t ∈ ((s.runqueues cpu).arrays array).queue k ↔
      s.QueuedIn cpu array t ∧ (s.task t).prio = k := by
  rw [← ownRq_array, ← ownRq_sched]
  exact h.layout.mem_queue

theorem range (h : s.RqInv cpu) (ht : s.QueuedIn cpu array t) :
    0 ≤ (s.task t).prio ∧ (s.task t).prio < maxPrio := by
  rw [← ownRq_sched cpu]
  refine h.layout.range t ?_
  rw [ownRq_array.mpr ht]
  exact Option.some_ne_none _

theorem bitmapOk (h : s.RqInv cpu) (array : PrioArrayPtr) : s.BitmapOk cpu array :=
  fun k hk hlt => h.layout.bitmap array (array, k) (mem_levels.mpr ⟨rfl, hk, hlt⟩)

/-- `nr_active` is 0 only if the array holds no task. -/
theorem not_queued (h : s.RqInv cpu) (harray : ((s.runqueues cpu).arrays array).nrActive = 0)
    (t : TaskId) : ¬s.QueuedIn cpu array t := by
  intro ht
  have hcount := h.layout.nrActive array
  have hmem : (array, (s.task t).prio) ∈ levels array := mem_levels.mpr ⟨rfl, h.range ht⟩
  have hempty := count_eq_zero_iff.mp (hcount.symm.trans harray) _ hmem
  have hin : t ∈ (s.ownRq cpu).queues (array, (s.task t).prio) := h.mem_queue.mpr ⟨ht, rfl⟩
  rw [hempty] at hin
  cases hin

/-- The tasks of `active` and `expired` are OTHER tasks. -/
theorem other_task (h : s.RqInv cpu) (ht : s.QueuedIn cpu array t)
    (harray : array = (s.runqueues cpu).expired ∨ array = (s.runqueues cpu).active) :
    TaskOk (s.task t).toTaskSched ∧ (s.task t).OtherTask := by
  have hne : t ≠ (s.runqueues cpu).idle := by
    rintro rfl
    rw [QueuedIn, h.idle_array] at ht
    cases ht.2
  obtain ⟨hok, hfits⟩ := h.tasks t ht.1 hne
  have hfit := hfits array ht.2
  obtain ⟨-, hre, hoe, hra, hoa, -⟩ := ptrs_ne (s.runqueues cpu).toRqPtrs
  have hrt : array ≠ (s.runqueues cpu).rtShort := by
    rcases harray with rfl | rfl
    · exact hre.symm
    · exact hra.symm
  have hover : array ≠ (s.runqueues cpu).overdue := by
    rcases harray with rfl | rfl
    · exact hoe.symm
    · exact hoa.symm
  refine ⟨hok, ?_⟩
  rcases TaskOk.policy_cases (s.task t).policy with hpolicy | hother | hshort
  · exact absurd (hfit.rt hpolicy) hrt
  · exact hother
  · rcases hok.iAmOverdue_cases hshort with hs | ho
    · exact absurd (hfit.short hs) hrt
    · exact absurd (hfit.overdue ho) hover

end RqInv

/-! ## The search of both arrays -/

/-- The search of one array for an idle CPU ends, and looks at every task of the array. -/
theorem newArray_idle (h : s.RqInv busiest) (thisCpu : ℕ) (array : PrioArrayPtr) (imbalance : ℤ) :
    ∃ r, newArray busiest thisCpu true array imbalance s = some r ∧
      Searched s busiest thisCpu array imbalance (s.QueuedIn busiest array) r := by
  obtain ⟨r, hr, hsearched⟩ := skipBitmap_idle (h.bitmapOk array) thisCpu imbalance 141 0
    (by decide) (by decide)
  refine ⟨r, hr, ?_⟩
  cases hsearched with
  | pulled p hseen hcan =>
    obtain ⟨k, -, hp⟩ := hseen
    exact .pulled p (h.mem_queue.mp hp).1 hcan
  | nothing hnone =>
    exact .nothing fun p hp => hnone p ⟨_, h.range hp, h.mem_queue.mpr ⟨hp, rfl⟩⟩

/-- A task of `active` or `expired` that may be migrated. -/
def Reachable (s : Smp) (busiest thisCpu : ℕ) (array : PrioArrayPtr) (p : TaskId) : Prop :=
  (array = (s.runqueues busiest).expired ∨ array = (s.runqueues busiest).active) ∧
    s.QueuedIn busiest array p ∧ s.CanMigrateTask p busiest thisCpu

/-- **The search** for an idle CPU pulls one task of `active` or `expired`, if there is one that
may be migrated, and nothing else. -/
theorem searchTasks_idle (h : s.RqInv busiest) (imbalance : ℤ) :
    (∃ array p, s.Reachable busiest thisCpu array p ∧
      searchTasks busiest thisCpu true imbalance s =
        some (s.pullTask p array busiest thisCpu)) ∨
    (∀ array p, ¬s.Reachable busiest thisCpu array p) ∧
      searchTasks busiest thisCpu true imbalance s = some s := by
  obtain ⟨r, hr, hsearched⟩ := newArray_idle h thisCpu (s.runqueues busiest).active imbalance
  obtain ⟨r', hr', hsearched'⟩ := newArray_idle h thisCpu (s.runqueues busiest).expired imbalance
  have hne : (s.runqueues busiest).active ≠ (s.runqueues busiest).expired := (ptrs_ne _).1
  unfold searchTasks
  by_cases hexpired : ((s.runqueues busiest).arrays (s.runqueues busiest).expired).nrActive = 0
  · simp only [hexpired, ne_eq, not_true_eq_false, if_false, hr, Option.bind_eq_bind,
      Option.bind_some]
    cases hsearched with
    | pulled p hseen hcan => exact .inl ⟨_, p, ⟨.inr rfl, hseen, hcan⟩, rfl⟩
    | nothing hnone =>
      refine .inr ⟨?_, if_neg hne⟩
      rintro array p ⟨rfl | rfl, hqueued, hcan⟩
      · exact h.not_queued hexpired p hqueued
      · exact hnone p hqueued hcan
  · simp only [hexpired, ne_eq, not_false_eq_true, if_true, hr', Option.bind_eq_bind,
      Option.bind_some]
    cases hsearched' with
    | pulled p hseen hcan => exact .inl ⟨_, p, ⟨.inl rfl, hseen, hcan⟩, rfl⟩
    | nothing hnone' =>
      simp only [hr, Option.bind_some]
      cases hsearched with
      | pulled p hseen hcan => exact .inl ⟨_, p, ⟨.inr rfl, hseen, hcan⟩, rfl⟩
      | nothing hnone =>
        refine .inr ⟨?_, rfl⟩
        rintro array p ⟨rfl | rfl, hqueued, hcan⟩
        · exact hnone' p hqueued hcan
        · exact hnone p hqueued hcan

/-! ## The busiest runqueue of two -/

/-- With no other CPU than these two, the other one is the busiest. -/
theorem findBusiest_pair {other : ℕ} (hcpus : s.cpuLogicalMap = [thisCpu, other] ∨
      s.cpuLogicalMap = [other, thisCpu]) (hne : other ≠ thisCpu)
    (hmany : 2 ≤ (s.runqueues other).nrRunning) :
    ∃ prev, s.findBusiest thisCpu true =
      (some other, (s.runqueues other).nrRunning, { s with prevNrRunning := prev }) := by
  have hload : (s.runqueues other).nrRunning > 1 := by omega
  -- the round for `other` chooses it, the round for `thisCpu` changes nothing
  have hother : ∀ (prev : ℕ → ℕ → ℤ) (maxLoad : ℤ) (busiest : Option ℕ), maxLoad = 1 → ∃ prev',
      considerRq thisCpu true (busiest, maxLoad, { s with prevNrRunning := prev }) other =
        (some other, (s.runqueues other).nrRunning, { s with prevNrRunning := prev' }) := by
    rintro prev maxLoad busiest rfl
    exact ⟨_, if_pos ⟨hload, hne⟩⟩
  have hthis : ∀ (prev : ℕ → ℕ → ℤ) (maxLoad : ℤ) (busiest : Option ℕ), ∃ prev',
      considerRq thisCpu true (busiest, maxLoad, { s with prevNrRunning := prev }) thisCpu =
        (busiest, maxLoad, { s with prevNrRunning := prev' }) :=
    fun prev maxLoad busiest => ⟨_, if_neg fun h => h.2 rfl⟩
  rcases hcpus with h | h
  · obtain ⟨prev, hround⟩ := hthis s.prevNrRunning 1 none
    obtain ⟨prev', hround'⟩ := hother prev 1 none rfl
    refine ⟨prev', ?_⟩
    rw [findBusiest, h, List.foldl_cons, List.foldl_cons, List.foldl_nil, hround, hround', h]
  · obtain ⟨prev, hround⟩ := hother s.prevNrRunning 1 none rfl
    obtain ⟨prev', hround'⟩ := hthis prev (s.runqueues other).nrRunning (some other)
    refine ⟨prev', ?_⟩
    rw [findBusiest, h, List.foldl_cons, List.foldl_cons, List.foldl_nil, hround, hround', h]

/-! ## The pull -/

/-- Of its task a primitive needs the priority alone to edit the runqueue. -/
theorem dequeueTask_arrays {s s' : Sys} (hrq : s'.rq = s.rq)
    (hprio : (s'.task p).prio = (s.task p).prio) :
    (s'.dequeueTask p array).rq.arrays = (s.dequeueTask p array).rq.arrays := by
  have hqueues : s'.queues = s.queues := by
    unfold queues queue
    rw [hrq]
  have hbits : s'.bits = s.bits := by
    unfold bits
    rw [hrq]
  have hactives : s'.nrActives = s.nrActives := nrActives_congr (by rw [hrq])
  apply arrays_ext
  · rw [queues_dequeueTask, queues_dequeueTask, hqueues]
  · rw [bits_dequeueTask, bits_dequeueTask, hqueues, hbits, hprio]
  · rw [nrActives_dequeueTask, nrActives_dequeueTask, hactives]

theorem enqueueTail_rq {s s' : Sys} (hrq : s'.rq = s.rq)
    (hprio : (s'.task p).prio = (s.task p).prio) :
    (s'.enqueueTail p array).rq = (s.enqueueTail p array).rq := by
  simp only [enqueueTail, enqueueFinish, listAddTail, setQueue, modifyArray, modifyRq, setBit,
    queue, modify_rq, hrq, hprio]

/-- What a pull leaves, but for `need_resched`. -/
def pulled (p : TaskId) (array : PrioArrayPtr) (busiest thisCpu : ℕ) (s : Smp) : Smp :=
  let dequeued := ((s.cpuRq busiest).dequeueTask p array).rq
  let enqueued := ((s.cpuRq thisCpu).enqueueTail p (s.runqueues thisCpu).active).rq
  { s with
    task := Function.update s.task p
      { s.task p with cpu := thisCpu, array := some (s.runqueues thisCpu).active }
    runqueues := Function.update (Function.update s.runqueues busiest
        { dequeued with nrRunning := dequeued.nrRunning - 1 })
      thisCpu { enqueued with nrRunning := enqueued.nrRunning + 1 } }

/-- The state in which a pull calls `enqueue_task`. -/
def beforeEnqueue (p : TaskId) (array : PrioArrayPtr) (busiest thisCpu : ℕ) (s : Smp) : Smp :=
  let dequeued := ((s.cpuRq busiest).dequeueTask p array).rq
  { s with
    task := Function.update s.task p { s.task p with cpu := thisCpu }
    runqueues := Function.update (Function.update s.runqueues busiest
        { dequeued with nrRunning := dequeued.nrRunning - 1 })
      thisCpu { s.runqueues thisCpu with nrRunning := (s.runqueues thisCpu).nrRunning + 1 } }

/-- Without flags `pull_task` enqueues the task alone. -/
theorem enqueue_beforeEnqueue (hflags : s.NoFlags) :
    (s.beforeEnqueue p array busiest thisCpu).onRq thisCpu
      (enqueueTask p (s.runqueues thisCpu).active) = s.pulled p array busiest thisCpu := by
  have hbranch : ¬((s.beforeEnqueue p array busiest thisCpu).cpuRq thisCpu).ForkBranch p := by
    intro hc
    refine hc.2.1 ?_
    show (Function.update s.task p _ _).justGotForked = 0
    rw [Function.update_apply]
    split
    · exact hflags p
    · exact hflags _
  unfold onRq
  rw [enqueueTask_of_not_forkBranch hbranch]
  simp only [beforeEnqueue, pulled, cpuRq, enqueueTail_task, Function.update_self,
    Function.update_idem]
  have hrq : ∀ (rq : Runqueue) (a : PrioArrayPtr),
      (enqueueTail p a ⟨Function.update s.task p { s.task p with cpu := thisCpu }, rq, s.jiffies,
        s.tasklist, none⟩).rq = (enqueueTail p a ⟨s.task, rq, s.jiffies, s.tasklist, none⟩).rq :=
    fun rq a => enqueueTail_rq rfl (by simp only [Function.update_self])
  rw [hrq]
  rfl

/-- **`pull_task`** moves the task and may set `need_resched`. -/
theorem pullTask_eq (hflags : s.NoFlags) (hne : busiest ≠ thisCpu) (p : TaskId)
    (array : PrioArrayPtr) :
    s.pullTask p array busiest thisCpu = s.pulled p array busiest thisCpu ∨
      s.pullTask p array busiest thisCpu =
        (s.pulled p array busiest thisCpu).setNeedResched thisCpu := by
  have hbefore : ((((s.onRq busiest (dequeueTask p array)).onRq busiest
      (modifyRq fun rq => { rq with nrRunning := rq.nrRunning - 1 })).onRq thisCpu
      (modify p fun t => { t with cpu := thisCpu })).onRq thisCpu
      (modifyRq fun rq => { rq with nrRunning := rq.nrRunning + 1 })) =
        s.beforeEnqueue p array busiest thisCpu := by
    simp only [onRq, cpuRq, beforeEnqueue, modifyRq, modify_task, modify_rq, dequeueTask_task,
      Function.update_self, Function.update_idem, Function.update_of_ne hne.symm]
  have hactive : ((s.beforeEnqueue p array busiest thisCpu).runqueues thisCpu).active =
      (s.runqueues thisCpu).active := by
    simp only [beforeEnqueue, Function.update_self]
  unfold pullTask
  simp only [hbefore, hactive, enqueue_beforeEnqueue hflags]
  split
  · exact .inr rfl
  · exact .inl rfl

theorem pulled_self : (s.pulled p array busiest thisCpu).task p =
    { s.task p with cpu := thisCpu, array := some (s.runqueues thisCpu).active } :=
  Function.update_self _ _ _

theorem pulled_other (ht : t ≠ p) : (s.pulled p array busiest thisCpu).task t = s.task t :=
  Function.update_of_ne ht _ _

/-- The busiest runqueue has one task less. -/
theorem ptrs_pulled_busiest (hne : busiest ≠ thisCpu) (p : TaskId) (array : PrioArrayPtr)
    (s : Smp) :
    ((s.pulled p array busiest thisCpu).runqueues busiest).toRqPtrs =
      { (s.runqueues busiest).toRqPtrs with
        nrRunning := (s.runqueues busiest).nrRunning - 1 } := by
  have hptrs : ((s.cpuRq busiest).dequeueTask p array).rq.toRqPtrs =
      (s.runqueues busiest).toRqPtrs := dequeueTask_ptrs _ _ _
  simp only [pulled, Function.update_of_ne hne, Function.update_self, hptrs]

theorem ptrs_pulled_this (p : TaskId) (array : PrioArrayPtr) (busiest thisCpu : ℕ) (s : Smp) :
    ((s.pulled p array busiest thisCpu).runqueues thisCpu).toRqPtrs =
      { (s.runqueues thisCpu).toRqPtrs with
        nrRunning := (s.runqueues thisCpu).nrRunning + 1 } := by
  have hptrs : ((s.cpuRq thisCpu).enqueueTail p (s.runqueues thisCpu).active).rq.toRqPtrs =
      (s.runqueues thisCpu).toRqPtrs := enqueueTail_ptrs _ _ _
  simp only [pulled, Function.update_self, hptrs]

theorem arrays_pulled_busiest (hne : busiest ≠ thisCpu) :
    ((s.pulled p array busiest thisCpu).ownRq busiest).rq.arrays =
      ((s.ownRq busiest).dequeueTask p array).rq.arrays := by
  show ((s.pulled p array busiest thisCpu).runqueues busiest).arrays = _
  simp only [pulled, Function.update_of_ne hne, Function.update_self]
  exact dequeueTask_arrays rfl (congrArg TaskSched.prio (ownRq_sched _ _ _)).symm

theorem arrays_pulled_this : ((s.pulled p array busiest thisCpu).ownRq thisCpu).rq.arrays =
    ((s.ownRq thisCpu).enqueueTail p (s.runqueues thisCpu).active).rq.arrays := by
  have hrq : ((s.cpuRq thisCpu).enqueueTail p (s.runqueues thisCpu).active).rq =
      ((s.ownRq thisCpu).enqueueTail p (s.runqueues thisCpu).active).rq :=
    enqueueTail_rq rfl (congrArg TaskSched.prio (ownRq_sched _ _ _)).symm
  show ((s.pulled p array busiest thisCpu).runqueues thisCpu).arrays = _
  simp only [pulled, Function.update_self, hrq]

theorem ownRq_task_congr (h : s'.task t = s.task t) :
    (s'.ownRq cpu).task t = (s.ownRq cpu).task t := by
  show (if _ then _ else _) = if _ then _ else _
  rw [h]

/-- A task of another CPU is not queued here. -/
theorem ownRq_array_of_ne (h : (s.task t).cpu ≠ cpu) : ((s.ownRq cpu).task t).array = none := by
  rw [Option.eq_none_iff_forall_not_mem]
  exact fun array harray => h (ownRq_array.mp harray).1

namespace RqInv

theorem ne_idle (h : s.RqInv cpu) {c : ℕ} (ht : s.QueuedIn c array t) :
    t ≠ (s.runqueues cpu).idle := by
  rintro rfl
  rw [QueuedIn, h.idle_array] at ht
  cases ht.2

/-- A change of one task keeps the invariant if the runqueue agrees again and the task is valid
again. -/
theorem step (h : s.RqInv cpu) (hlayout : (s'.ownRq cpu).Layout)
    (hrunning : (s'.runqueues cpu).nrRunning = ∑ array, (s'.ownRq cpu).nrActives array)
    (hptrs : SamePtrs (s.runqueues cpu).toRqPtrs (s'.runqueues cpu).toRqPtrs)
    (hp : p ≠ (s.runqueues cpu).idle) (hcurr : p ≠ (s.runqueues cpu).curr)
    (hothers : ∀ t, t ≠ p → s'.task t = s.task t)
    (htask : (s'.task p).cpu = cpu → TaskInv (s'.runqueues cpu).toRqPtrs (s'.task p)) :
    s'.RqInv cpu where
  layout := hlayout
  nrRunning := hrunning
  idle_array := by rw [hptrs.idle, hothers _ hp.symm, h.idle_array]
  idle_runs := by rw [hptrs.idle, hothers _ hp.symm, h.idle_runs]
  idle_prio := by rw [hptrs.idle, hothers _ hp.symm, h.idle_prio]
  curr_cpu := by rw [hptrs.curr, hothers _ hcurr.symm, h.curr_cpu]
  tasks t hcpu ht := by
    by_cases htp : t = p
    · subst htp
      exact htask hcpu
    · rw [hothers t htp] at hcpu ⊢
      rw [hptrs.idle] at ht
      exact (h.tasks t hcpu ht).congr hptrs.upToSwap rfl rfl

/-- Its queues are those without the task. -/
theorem layout_pulled_busiest (h : s.RqInv busiest) (hp : s.QueuedIn busiest array p)
    (hne : busiest ≠ thisCpu) : ((s.pulled p array busiest thisCpu).ownRq busiest).Layout := by
  have hdequeued : ((s.ownRq busiest).dequeueTask p array).LayoutExcept p :=
    h.layout.dequeueTask (ownRq_array.mpr hp)
  have hexcept : ((s.pulled p array busiest thisCpu).ownRq busiest).LayoutExcept p := by
    refine hdequeued.congr (arrays_pulled_busiest hne) ?_ ?_
    · intro t ht
      rw [ownRq_task_congr (pulled_other ht), dequeueTask_task]
    · intro t ht
      rw [ownRq_task_congr (pulled_other ht), dequeueTask_task]
  apply hexcept.toLayout
  apply ownRq_array_of_ne
  rw [pulled_self]
  exact hne.symm

/-- **The other runqueue** loses the task. -/
theorem pulled_busiest (h : s.RqInv busiest) (hp : s.QueuedIn busiest array p)
    (hcurr : p ≠ (s.runqueues busiest).curr) (hne : busiest ≠ thisCpu) :
    (s.pulled p array busiest thisCpu).RqInv busiest := by
  have hptrs := ptrs_pulled_busiest hne p array s
  refine h.step (h.layout_pulled_busiest hp hne) ?_ ?_ (h.ne_idle hp) hcurr
    (fun _ => pulled_other) fun hcpu => ?_
  · rw [hptrs, nrActives_congr (arrays_pulled_busiest hne), sum_nrActives_dequeueTask,
      ← h.nrRunning]
  · rw [hptrs]
    exact ⟨rfl, rfl, rfl, rfl, rfl, rfl⟩
  · rw [pulled_self] at hcpu
    exact absurd hcpu.symm hne

/-- The queues of the CPU that pulls have the task at the end of its level. -/
theorem layout_pulled_this (h : s.RqInv thisCpu) (hbusiest : s.RqInv busiest)
    (hp : s.QueuedIn busiest array p) (hne : busiest ≠ thisCpu) :
    ((s.pulled p array busiest thisCpu).ownRq thisCpu).Layout := by
  have hcpu : (s.task p).cpu ≠ thisCpu := hp.1 ▸ hne
  have henqueued : ((s.ownRq thisCpu).enqueueTail p (s.runqueues thisCpu).active).Layout := by
    apply (h.layout.toExcept (ownRq_array_of_ne hcpu)).enqueueTail
    rw [ownRq_sched]
    exact hbusiest.range hp
  have hown : ∀ t, (((s.pulled p array busiest thisCpu).ownRq thisCpu).task t).array =
        (((s.ownRq thisCpu).enqueueTail p (s.runqueues thisCpu).active).task t).array ∧
      (((s.pulled p array busiest thisCpu).ownRq thisCpu).task t).prio =
        (((s.ownRq thisCpu).enqueueTail p (s.runqueues thisCpu).active).task t).prio := by
    intro t
    by_cases ht : t = p
    · subst ht
      have hqueued : (s.pulled t array busiest thisCpu).QueuedIn thisCpu
          (s.runqueues thisCpu).active t := by
        rw [QueuedIn, pulled_self]
        exact ⟨rfl, rfl⟩
      rw [enqueueTail_task, Function.update_self, ownRq_array.mpr hqueued, ownRq_sched, pulled_self]
      exact ⟨rfl, (congrArg TaskSched.prio (ownRq_sched _ _ _)).symm⟩
    · rw [ownRq_task_congr (pulled_other ht), enqueueTail_task, Function.update_of_ne ht]
      exact ⟨rfl, rfl⟩
  exact henqueued.congr arrays_pulled_this (fun t => (hown t).1) fun t _ => (hown t).2

/-- **This runqueue** gets it, into the array of its class. -/
theorem pulled_this (h : s.RqInv thisCpu) (hbusiest : s.RqInv busiest)
    (hp : s.QueuedIn busiest array p) (hok : TaskOk (s.task p).toTaskSched)
    (hother : (s.task p).OtherTask) (hne : busiest ≠ thisCpu) :
    (s.pulled p array busiest thisCpu).RqInv thisCpu := by
  have hptrs := ptrs_pulled_this p array busiest thisCpu s
  have hcurr : p ≠ (s.runqueues thisCpu).curr := by
    rintro rfl
    exact hne (hp.1.symm.trans h.curr_cpu)
  refine h.step (h.layout_pulled_this hbusiest hp hne) ?_ ?_ (h.ne_idle hp) hcurr
    (fun _ => pulled_other) fun _ => ?_
  · rw [hptrs, nrActives_congr arrays_pulled_this, sum_nrActives_enqueueTail, ← h.nrRunning]
  · rw [hptrs]
    exact ⟨rfl, rfl, rfl, rfl, rfl, rfl⟩
  · rw [hptrs, pulled_self]
    refine ⟨hok, ?_⟩
    rintro a ⟨⟩
    rw [← hok.pointer_of_other hother]
    exact hok.fits_pointer _

end RqInv

/-- Two states that differ at most in the need for a reschedule and in the lengths recorded. -/
structure SameQueues (s s' : Smp) : Prop where
  runqueues : s'.runqueues = s.runqueues
  sched : ∀ t, (s'.task t).toTaskSched = (s.task t).toTaskSched
  array : ∀ t, (s'.task t).array = (s.task t).array
  cpu : ∀ t, (s'.task t).cpu = (s.task t).cpu
  state : ∀ t, (s'.task t).state = (s.task t).state

theorem SameQueues.prevNrRunning (prev : ℕ → ℕ → ℤ) :
    SameQueues s { s with prevNrRunning := prev } :=
  ⟨rfl, fun _ => rfl, fun _ => rfl, fun _ => rfl, fun _ => rfl⟩

theorem setNeedResched_proj {α : Type} (g : Task → α)
    (hg : ∀ t : Task, g { t with needResched := 1 } = g t) (thisCpu : ℕ) (s : Smp) (t : TaskId) :
    g ((s.setNeedResched thisCpu).task t) = g (s.task t) :=
  modify_proj (s := s.cpuRq thisCpu) (f := fun t => { t with needResched := 1 }) g (hg _) t

theorem sameQueues_setNeedResched (thisCpu : ℕ) (s : Smp) :
    SameQueues s (s.setNeedResched thisCpu) where
  runqueues := Function.update_eq_self _ _
  sched := setNeedResched_proj (fun t => t.toTaskSched) (fun _ => rfl) thisCpu s
  array := setNeedResched_proj (fun t => t.array) (fun _ => rfl) thisCpu s
  cpu := setNeedResched_proj (fun t => t.cpu) (fun _ => rfl) thisCpu s
  state := setNeedResched_proj (fun t => t.state) (fun _ => rfl) thisCpu s

/-- The invariant of a CPU is about its runqueue and its tasks. -/
theorem RqInv.sameQueues (h : s.RqInv cpu) (hsame : SameQueues s s') : s'.RqInv cpu where
  layout := by
    refine h.layout.congr ?_ (fun t => ?_) fun t _ => ?_
    · exact congrArg Runqueue.arrays (congrFun hsame.runqueues cpu)
    · show (if _ then _ else _ : Task).array = (if _ then _ else _ : Task).array
      rw [hsame.cpu]
      split
      · exact hsame.array t
      · rfl
    · rw [ownRq_sched, ownRq_sched, hsame.sched]
  nrRunning := by
    have harrays : (s'.ownRq cpu).rq.arrays = (s.ownRq cpu).rq.arrays :=
      congrArg Runqueue.arrays (congrFun hsame.runqueues cpu)
    rw [hsame.runqueues, nrActives_congr harrays, h.nrRunning]
  idle_array := by rw [hsame.runqueues, hsame.array, h.idle_array]
  idle_runs := by rw [hsame.runqueues, hsame.state, h.idle_runs]
  idle_prio := by rw [hsame.runqueues, hsame.sched, h.idle_prio]
  curr_cpu := by rw [hsame.runqueues, hsame.cpu, h.curr_cpu]
  tasks t hcpu ht := by
    rw [hsame.cpu] at hcpu
    rw [hsame.runqueues] at ht ⊢
    exact (h.tasks t hcpu ht).congr (SamePtrs.refl _).upToSwap (hsame.sched t) (hsame.array t)

/-! ## The call -/

variable {other : ℕ}

/-- **`load_balance(this_rq, 1)`** with one other runqueue that holds two tasks or more pulls one
task of `active` or `expired`, if there is one that may be migrated, and nothing else. -/
theorem loadBalance_idle (hcpus : s.cpuLogicalMap = [thisCpu, other] ∨
      s.cpuLogicalMap = [other, thisCpu]) (hne : other ≠ thisCpu) (hother : s.RqInv other)
    (hidle : (s.runqueues thisCpu).nrRunning = 0) (hmany : 2 ≤ (s.runqueues other).nrRunning) :
    ∃ prev, (∃ array p, s.Reachable other thisCpu array p ∧ loadBalance thisCpu true s =
        some (({ s with prevNrRunning := prev } : Smp).pullTask p array other thisCpu)) ∨
      (∀ array p, ¬s.Reachable other thisCpu array p) ∧
        loadBalance thisCpu true s = some { s with prevNrRunning := prev } := by
  obtain ⟨prev, hbusiest⟩ := findBusiest_pair hcpus hne hmany
  have hmore : ¬(s.runqueues other).nrRunning ≤ 0 + 1 := by omega
  have hcall : loadBalance thisCpu true s = searchTasks other thisCpu true
      (((s.runqueues other).nrRunning - 0).tdiv 2) { s with prevNrRunning := prev } := by
    simp only [loadBalance, hbusiest, hidle, true_or, if_true, Bool.true_eq_false, false_and,
      if_false, hmore]
  refine ⟨prev, ?_⟩
  rw [hcall]
  exact searchTasks_idle (hother.sameQueues (.prevNrRunning prev)) _

/-- The task `p` waits for the other CPU and moves to the runqueue of `thisCpu`, into the array of
its class. It is the only one that moves. -/
structure Moved (s : Smp) (other thisCpu : ℕ) (p : TaskId) (s' : Smp) : Prop where
  leaves : ∃ array, s.QueuedIn other array p
  can : s.CanMigrateTask p other thisCpu
  arrives : s'.QueuedIn thisCpu (pointerToMyActivePrioArray (s.task p).toTaskSched
    (s.runqueues thisCpu).toRqPtrs) p
  others : ∀ t, t ≠ p → (s'.task t).cpu = (s.task t).cpu ∧ (s'.task t).array = (s.task t).array

/-- A pull of a task that the search reaches moves it, and keeps both invariants. -/
theorem moved_pullTask (hne : other ≠ thisCpu) (hthis : s.RqInv thisCpu) (hother : s.RqInv other)
    (hflags : s.NoFlags) (hp : s.Reachable other thisCpu array p) :
    (s.pullTask p array other thisCpu).RqInv thisCpu ∧
      (s.pullTask p array other thisCpu).RqInv other ∧
      s.Moved other thisCpu p (s.pullTask p array other thisCpu) := by
  obtain ⟨harray, hqueued, hcan⟩ := hp
  obtain ⟨hok, hclass⟩ := hother.other_task hqueued harray
  have hsame : SameQueues (s.pulled p array other thisCpu) (s.pullTask p array other thisCpu) := by
    rcases pullTask_eq hflags hne p array with h | h
    · rw [h]
      exact ⟨rfl, fun _ => rfl, fun _ => rfl, fun _ => rfl, fun _ => rfl⟩
    · rw [h]
      exact sameQueues_setNeedResched _ _
  refine ⟨?_, ?_, ⟨_, hqueued⟩, hcan, ?_, fun t ht => ?_⟩
  · exact (hthis.pulled_this hother hqueued hok hclass hne).sameQueues hsame
  · exact (hother.pulled_busiest hqueued hcan.2.1 hne).sameQueues hsame
  · rw [QueuedIn, hsame.cpu, hsame.array, pulled_self, hok.pointer_of_other hclass]
    exact ⟨rfl, rfl⟩
  · rw [hsame.cpu, hsame.array, pulled_other ht]
    exact ⟨rfl, rfl⟩

end Smp
end ShortSched
