import ShortSched.Invariant
import Mathlib.Algebra.BigOperators.Ring.Finset

/-!
# What `schedule` does

One pass of `schedule` puts `prev` to sleep if it has to, picks the first task of the best
queue, and switches. The pass never fails and never picks from an empty queue as long as the
runqueue agrees with itself, and `goto need_resched` is taken finitely often, because each
pass lowers the `need_resched` flag of the task that it takes the processor from.
-/

namespace ShortSched

open General

/-- `schedule` takes a task in this state off the runqueue. -/
abbrev Task.GoesToSleep (t : Task) : Prop :=
  t.state ≠ .running ∧ ¬(t.state = .interruptible ∧ t.sigpending = true)

/-- The pointers after a pass of `schedule`: `active` and `expired` may have been exchanged. -/
structure SamePtrsUpToSwap (q q' : RqPtrs) : Prop where
  idle : q'.idle = q.idle
  rtShort : q'.rtShort = q.rtShort
  overdue : q'.overdue = q.overdue
  swap : q'.active = q.active ∧ q'.expired = q.expired ∨
    q'.active = q.expired ∧ q'.expired = q.active

theorem SamePtrs.upToSwap {q q' : RqPtrs} (h : SamePtrs q q') : SamePtrsUpToSwap q q' :=
  ⟨h.idle, h.rtShort, h.overdue, .inl ⟨h.active, h.expired⟩⟩

/-- Two swaps of the arrays are none. -/
theorem SamePtrsUpToSwap.trans {q q' q'' : RqPtrs} (h : SamePtrsUpToSwap q q')
    (h' : SamePtrsUpToSwap q' q'') : SamePtrsUpToSwap q q'' := by
  refine ⟨h'.idle.trans h.idle, h'.rtShort.trans h.rtShort, h'.overdue.trans h.overdue, ?_⟩
  rcases h.swap with ⟨ha, he⟩ | ⟨ha, he⟩ <;> rcases h'.swap with ⟨ha', he'⟩ | ⟨ha', he'⟩
  · exact .inl ⟨ha'.trans ha, he'.trans he⟩
  · exact .inr ⟨ha'.trans he, he'.trans ha⟩
  · exact .inr ⟨ha'.trans ha, he'.trans he⟩
  · exact .inl ⟨ha'.trans he, he'.trans ha⟩

namespace Sys

variable {s s' s₁ : Sys} {p t next : TaskId} {array : PrioArrayPtr}

/-! ## `sched_find_first_bit` -/

/-- **`find_first_bit`** returns the first bit that is set, or the limit. -/
theorem findBit_spec (bitmap : ℤ → Bool) (i : ℤ) (n : ℕ) :
    i ≤ findBit bitmap i n ∧ findBit bitmap i n ≤ i + n ∧
      (∀ k, i ≤ k → k < findBit bitmap i n → bitmap k = false) ∧
      (findBit bitmap i n < i + n → bitmap (findBit bitmap i n) = true) := by
  induction n generalizing i with
  | zero =>
    rw [findBit]
    refine ⟨le_rfl, by omega, fun k h h' => by omega, fun h => by omega⟩
  | succ n ih =>
    rw [findBit]
    split
    · next hbit => exact ⟨le_rfl, by omega, fun k h h' => by omega, fun _ => hbit⟩
    · next hbit =>
      obtain ⟨hle, hub, hlow, hset⟩ := ih (i + 1)
      refine ⟨by omega, by omega, ?_, fun h => hset (by omega)⟩
      intro k hk hk'
      by_cases hki : k = i
      · subst hki
        simpa using hbit
      · exact hlow k (by omega) hk'

/-- The lowest set bit, if there is one. -/
theorem schedFindFirstBit_of_bit {bitmap : ℤ → Bool} {k : ℤ} (hk : 0 ≤ k ∧ k < maxPrio)
    (hbit : bitmap k = true) :
    bitmap (schedFindFirstBit bitmap) = true ∧ 0 ≤ schedFindFirstBit bitmap ∧
      schedFindFirstBit bitmap < maxPrio ∧
      ∀ j, 0 ≤ j → j < maxPrio → bitmap j = true → schedFindFirstBit bitmap ≤ j := by
  obtain ⟨hge, hle, hlow, hset⟩ := findBit_spec bitmap 0 140
  have hfirst : ∀ j, 0 ≤ j → bitmap j = true → schedFindFirstBit bitmap ≤ j := by
    intro j hj hbit
    by_contra hlt
    rw [hlow j hj (not_le.mp hlt)] at hbit
    cases hbit
  have hk' := hfirst k hk.1 hbit
  have hlt : schedFindFirstBit bitmap < 140 := by
    have := hk.2
    simp at this
    omega
  exact ⟨hset (by unfold schedFindFirstBit at hlt; omega), hge, by simpa using hlt,
    fun j hj _ hbit => hfirst j hj hbit⟩

/-! ## The first task of an array -/

/-- `t` is the task that an array would have run first: it is at the head of the best of its
queues. -/
structure FirstOf (s : Sys) (array : PrioArrayPtr) (t : TaskId) : Prop where
  queued : (s.task t).array = some array
  head : (s.queue array (s.task t).prio).head? = some t
  least : ∀ u, (s.task u).array = some array → (s.task t).prio ≤ (s.task u).prio

/-- An array whose counter is not zero has a first task, and `schedule` finds it. -/
theorem Layout.firstTask (h : s.Layout) (hactive : s.nrActives array ≠ 0) :
    ∃ t, s.firstTask array = some t ∧ s.FirstOf array t := by
  -- some queue of the array is not empty, so that its bit is set
  have hex : ∃ l ∈ levels array, s.queues l ≠ [] := by
    by_contra hnone
    push Not at hnone
    rw [h.nrActive, count_eq_zero_iff.mpr hnone] at hactive
    exact hactive rfl
  obtain ⟨⟨a, k⟩, hl, hne⟩ := hex
  obtain ⟨rfl, hk⟩ := mem_levels.mp hl
  have hbit : (s.rq.arrays a).bitmap k = true := (h.bitmap a _ hl).mpr hne
  obtain ⟨hset, hge, hlt, hleast⟩ := schedFindFirstBit_of_bit hk hbit
  generalize hi : schedFindFirstBit (s.rq.arrays a).bitmap = i at hset hge hlt hleast
  have hqueue : s.queue a i ≠ [] := (h.bitmap a (a, i) (mem_levels.mpr ⟨rfl, hge, hlt⟩)).mp hset
  obtain ⟨t, ts, hts⟩ := List.exists_cons_of_ne_nil hqueue
  have hmem : t ∈ s.queue a i := by rw [hts]; exact List.mem_cons_self
  obtain ⟨hqueued, hprio⟩ := h.mem_queue.mp hmem
  refine ⟨t, ?_, hqueued, ?_, ?_⟩
  · rw [Sys.firstTask, hi, hts]
    rfl
  · rw [hprio, hts]
    rfl
  · intro u hu
    obtain ⟨hu0, hu1⟩ := h.range u (by rw [hu]; exact Option.some_ne_none _)
    have hmem : u ∈ s.queue a (s.task u).prio := h.mem_queue.mpr ⟨hu, rfl⟩
    have hbit : (s.rq.arrays a).bitmap (s.task u).prio = true :=
      (h.bitmap a (a, (s.task u).prio) (mem_levels.mpr ⟨rfl, hu0, hu1⟩)).mpr
        (List.ne_nil_of_mem hmem)
    rw [hprio]
    exact hleast _ hu0 hu1 hbit

/-! ## Deactivating `prev` -/

/-- A task that stays runnable is set running. -/
theorem deactivatePrev_of_awake (h : ¬(s.task p).GoesToSleep) :
    s.deactivatePrev p = some (s.modify p fun t => { t with state := .running }) := by
  unfold deactivatePrev
  cases hstate : (s.task p).state with
  | running =>
    have hsame : s.modify p (fun t => { t with state := .running }) = s := by
      simp only [modify]
      rw [← hstate]
      simp
    rw [hsame]
  | interruptible =>
    have hpending : (s.task p).sigpending = true := by
      simpa [Task.GoesToSleep, hstate] using h
    simp [hpending]
  | uninterruptible | zombie | stopped => simp [Task.GoesToSleep, hstate] at h

/-- A task that sleeps is deactivated. -/
theorem deactivatePrev_of_asleep (h : (s.task p).GoesToSleep) :
    s.deactivatePrev p = s.deactivateTask p := by
  unfold deactivatePrev
  cases hstate : (s.task p).state with
  | running => simp [Task.GoesToSleep, hstate] at h
  | interruptible =>
    have hpending : (s.task p).sigpending = false := by
      simpa [Task.GoesToSleep, hstate] using h
    simp [hpending]
  | uninterruptible | zombie | stopped => rfl

/-! ## Picking the next task -/

/-- What `pick_next_task` leaves alone, whatever the state of the runqueue. -/
structure PickFrame (s : Sys) (next : TaskId) (s' : Sys) : Prop where
  task : s'.task = s.task
  arrays : s'.rq.arrays = s.rq.arrays
  ptrs : SamePtrsUpToSwap s.rq.toRqPtrs s'.rq.toRqPtrs
  curr : s'.rq.curr = s.rq.curr
  nrRunning : s'.rq.nrRunning = s.rq.nrRunning
  jiffies : s'.jiffies = s.jiffies
  tasklist : s'.tasklist = s.tasklist
  forking : s'.forking = s.forking
  /-- no task is taken from the array that is now the expired one -/
  next : next = s.rq.idle ∨ ∃ array prio, next ∈ s.queue array prio ∧ array ≠ s'.rq.expired

theorem mem_of_firstTask (h : s.firstTask array = some t) : ∃ prio, t ∈ s.queue array prio :=
  ⟨_, List.mem_of_mem_head? h⟩

theorem ptrs_ne (q : RqPtrs) : q.active ≠ q.expired ∧ q.rtShort ≠ q.expired ∧
    q.overdue ≠ q.expired ∧ q.rtShort ≠ q.active ∧ q.overdue ≠ q.active ∧
    q.rtShort ≠ q.overdue := by
  have h := q.distinct
  simp only [List.nodup_cons, List.mem_cons, List.not_mem_nil, or_false, not_or] at h
  obtain ⟨⟨h₁, h₂, h₃⟩, ⟨h₄, h₅⟩, h₆, -⟩ := h
  exact ⟨h₁, Ne.symm h₄, Ne.symm h₅, Ne.symm h₂, Ne.symm h₃, h₆⟩

/-- What the choice of the next task may change. -/
theorem pickNext_frame (h : s.pickNext = some (next, s')) : s.PickFrame next s' := by
  obtain ⟨hae, hre, hoe, -⟩ := ptrs_ne s.rq.toRqPtrs
  have hptrs : SamePtrsUpToSwap s.rq.toRqPtrs s.rq.toRqPtrs := ⟨rfl, rfl, rfl, .inl ⟨rfl, rfl⟩⟩
  have hfirst : ∀ array, array ≠ s.rq.expired → (s.firstTask array).map (·, s) = some (next, s') →
      s.PickFrame next s' := by
    intro array ha hmap
    obtain ⟨t, ht, heq⟩ := Option.map_eq_some_iff.mp hmap
    obtain ⟨rfl, rfl⟩ := Prod.mk.inj heq
    obtain ⟨prio, hmem⟩ := mem_of_firstTask ht
    exact ⟨rfl, rfl, hptrs, rfl, rfl, rfl, rfl, rfl, .inr ⟨array, prio, hmem, ha⟩⟩
  unfold pickNext at h
  split at h
  · obtain ⟨rfl, rfl⟩ := Prod.mk.inj (Option.some.inj h)
    exact ⟨rfl, rfl, ⟨rfl, rfl, rfl, .inl ⟨rfl, rfl⟩⟩, rfl, rfl, rfl, rfl, rfl, .inl rfl⟩
  split at h
  · exact hfirst _ hre h
  split at h
  · exact hfirst _ hae h
  split at h
  · obtain ⟨t, ht, heq⟩ := Option.map_eq_some_iff.mp h
    obtain ⟨rfl, rfl⟩ := Prod.mk.inj heq
    obtain ⟨prio, hmem⟩ := mem_of_firstTask ht
    refine ⟨rfl, rfl, ⟨rfl, rfl, rfl, .inr ⟨rfl, rfl⟩⟩, rfl, rfl, rfl, rfl, rfl, .inr ?_⟩
    exact ⟨s.rq.expired, prio, hmem, hae.symm⟩
  · exact hfirst _ hoe h

/-- What `pick_next_task` picks from a runqueue that agrees with itself. -/
inductive PickCase (s : Sys) : TaskId × Sys → Prop
  | idle (h : ∀ array, s.nrActives array = 0) :
      PickCase s (s.rq.idle, s.modifyRq fun rq => { rq with expiredTimestamp := 0 })
  | rtShort {t : TaskId} (h : s.FirstOf s.rq.rtShort t) : PickCase s (t, s)
  | active {t : TaskId} (hrt : s.nrActives s.rq.rtShort = 0) (h : s.FirstOf s.rq.active t) :
      PickCase s (t, s)
  | expired {t : TaskId} (hrt : s.nrActives s.rq.rtShort = 0)
      (hactive : s.nrActives s.rq.active = 0) (h : s.FirstOf s.rq.expired t) :
      PickCase s (t, s.modifyRq Runqueue.swapArrays)
  | overdue {t : TaskId} (hrt : s.nrActives s.rq.rtShort = 0)
      (hactive : s.nrActives s.rq.active = 0) (hexpired : s.nrActives s.rq.expired = 0)
      (h : s.FirstOf s.rq.overdue t) : PickCase s (t, s)

/-- **The next task**, by the first array in the order of `schedule` that has one. -/
theorem pickNext_cases (hlayout : s.Layout)
    (hrunning : s.rq.nrRunning = ∑ array, s.nrActives array) :
    ∃ r, s.pickNext = some r ∧ s.PickCase r := by
  have hsum := s.rq.toRqPtrs.sum_eq s.nrActives
  have hnonneg : ∀ array, 0 ≤ s.nrActives array := by
    intro array
    rw [hlayout.nrActive]
    exact count_nonneg _ _
  have hactive : ∀ array, (s.rq.arrays array).nrActive = s.nrActives array := fun _ => rfl
  unfold pickNext
  simp only [hactive]
  by_cases hzero : s.rq.nrRunning = 0
  · refine ⟨_, by rw [if_pos hzero], .idle ?_⟩
    rw [hzero] at hrunning
    exact fun array => (Finset.sum_eq_zero_iff_of_nonneg fun a _ => hnonneg a).mp hrunning.symm
      array (Finset.mem_univ array)
  rw [if_neg hzero]
  by_cases hrt : s.nrActives s.rq.rtShort = 0
  swap
  · obtain ⟨t, ht, hfirst⟩ := hlayout.firstTask hrt
    exact ⟨(t, s), by rw [if_pos hrt, ht]; rfl, .rtShort hfirst⟩
  rw [if_neg (not_not.mpr hrt)]
  by_cases hac : s.nrActives s.rq.active = 0
  swap
  · obtain ⟨t, ht, hfirst⟩ := hlayout.firstTask hac
    exact ⟨(t, s), by rw [if_pos hac, ht]; rfl, .active hrt hfirst⟩
  rw [if_neg (not_not.mpr hac)]
  by_cases hex : s.nrActives s.rq.expired = 0
  swap
  · obtain ⟨t, ht, hfirst⟩ := hlayout.firstTask hex
    refine ⟨(t, s.modifyRq Runqueue.swapArrays), ?_, .expired hrt hac hfirst⟩
    have hswap : (s.modifyRq Runqueue.swapArrays).firstTask
        (s.modifyRq Runqueue.swapArrays).rq.active = some t := ht
    rw [if_pos hex, hswap]
    rfl
  -- the counters add up to `nr_running`, so that the last array is not empty
  have hover : s.nrActives s.rq.overdue ≠ 0 := by omega
  obtain ⟨t, ht, hfirst⟩ := hlayout.firstTask hover
  exact ⟨(t, s), by rw [if_neg (not_not.mpr hex), ht]; rfl, .overdue hrt hac hex hfirst⟩

/-! ## One pass of `schedule` -/

/-- `schedule` up to `switch (prev->state)`. -/
def passBegin (s : Sys) : Sys := s.modify s.rq.curr fun t => { t with sleepTimestamp := s.jiffies }

theorem schedulePass_eq_some (h : s.schedulePass = some s') : ∃ s₁ next s₂,
    s.passBegin.deactivatePrev s.rq.curr = some s₁ ∧ s₁.pickNext = some (next, s₂) ∧
      s' = s₂.switchTasks s.rq.curr next := by
  unfold schedulePass at h
  simp only [Option.bind_eq_bind, Option.bind_eq_some_iff] at h
  obtain ⟨s₁, h₁, ⟨next, s₂⟩, h₂, h₃⟩ := h
  exact ⟨s₁, next, s₂, h₁, h₂, (Option.some.inj h₃).symm⟩

theorem passBegin_goesToSleep (s : Sys) :
    (s.passBegin.task s.rq.curr).GoesToSleep ↔ s.current.GoesToSleep := by
  simp [passBegin, Task.GoesToSleep]

/-- What the deactivation of `prev` leaves alone. -/
structure DeactivateFrame (s s₁ : Sys) : Prop where
  sched : ∀ t, (s₁.task t).toTaskSched = (s.task t).toTaskSched
  justGotForked : ∀ t, (s₁.task t).justGotForked = (s.task t).justGotForked
  pOpptr : ∀ t, (s₁.task t).pOpptr = (s.task t).pOpptr
  needResched : ∀ t, (s₁.task t).needResched = (s.task t).needResched
  state : ∀ t, (s₁.task t).state = (s.task t).state ∨ (s₁.task t).state = .running
  array : ∀ t, (s₁.task t).array =
    if t = s.rq.curr ∧ s.current.GoesToSleep then none else (s.task t).array
  queues : s₁.queues = if s.current.GoesToSleep then remove s.rq.curr s.queues else s.queues
  ptrs : SamePtrs s.rq.toRqPtrs s₁.rq.toRqPtrs
  jiffies : s₁.jiffies = s.jiffies
  tasklist : s₁.tasklist = s.tasklist
  forking : s₁.forking = s.forking

/-- What the end of the last task's turn may change. -/
theorem deactivatePrev_frame (h : s.passBegin.deactivatePrev s.rq.curr = some s₁) :
    s.DeactivateFrame s₁ := by
  have hbegin : ∀ {α : Type} (g : Task → α), (∀ t x, g { t with sleepTimestamp := x } = g t) →
      ∀ t, g (s.passBegin.task t) = g (s.task t) := fun g hg t => modify_proj g (hg _ _) t
  by_cases hsleep : s.current.GoesToSleep
  · rw [deactivatePrev_of_asleep (s.passBegin_goesToSleep.mpr hsleep)] at h
    obtain ⟨array, harray, rfl⟩ := deactivateTask_eq_some h
    have htask : ∀ {α : Type} (g : Task → α), (∀ t, g { t with array := none } = g t) →
        (∀ t x, g { t with sleepTimestamp := x } = g t) →
        ∀ t, g ((((s.passBegin.dropRunning s.rq.curr).dequeueTask s.rq.curr array).modify s.rq.curr
          fun t => { t with array := none }).task t) = g (s.task t) := by
      intro α g hg hg' t
      rw [modify_proj g (hg _) t, dequeueTask_task]
      exact hbegin g hg' t
    refine ⟨htask _ (fun _ => rfl) fun _ _ => rfl, htask _ (fun _ => rfl) fun _ _ => rfl,
      htask (fun t => t.pOpptr) (fun _ => rfl) fun _ _ => rfl,
      htask (fun t => t.needResched) (fun _ => rfl) fun _ _ => rfl,
      fun t => .inl (htask (fun t => t.state) (fun _ => rfl) (fun _ _ => rfl) t), ?_, ?_, ?_, ?_,
      ?_, ?_⟩
    · intro t
      by_cases ht : t = s.rq.curr
      · subst ht
        simp [hsleep]
      · simp [ht, dropRunning, passBegin]
    · rw [if_pos hsleep, queues_modify, queues_dequeueTask]
      rfl
    · rw [modify_rq, dequeueTask_ptrs]
      exact ⟨rfl, rfl, rfl, rfl, rfl, rfl⟩
    · simp [dropRunning, passBegin]
    · simp [dropRunning, passBegin]
    · simp [dropRunning, passBegin]
  · rw [deactivatePrev_of_awake (fun hc => hsleep (s.passBegin_goesToSleep.mp hc))] at h
    obtain rfl := Option.some.inj h
    have htask : ∀ {α : Type} (g : Task → α), (∀ t x, g { t with state := x } = g t) →
        (∀ t x, g { t with sleepTimestamp := x } = g t) →
        ∀ t, g ((s.passBegin.modify s.rq.curr fun t => { t with state := .running }).task t)
          = g (s.task t) := by
      intro α g hg hg' t
      rw [modify_proj g (hg _ _) t]
      exact hbegin g hg' t
    refine ⟨htask _ (fun _ _ => rfl) fun _ _ => rfl, htask _ (fun _ _ => rfl) fun _ _ => rfl,
      htask (fun t => t.pOpptr) (fun _ _ => rfl) fun _ _ => rfl,
      htask (fun t => t.needResched) (fun _ _ => rfl) fun _ _ => rfl, ?_, ?_, ?_, .refl _, rfl,
      rfl, rfl⟩
    · intro t
      by_cases ht : t = s.rq.curr
      · exact .inr (by simp [ht])
      · exact .inl (by simp [ht, passBegin])
    · intro t
      rw [if_neg fun hc => hsleep hc.2]
      exact htask (fun t => t.array) (fun _ _ => rfl) (fun _ _ => rfl) t
    · rw [if_neg hsleep]
      rfl

/-- What one pass of `schedule` leaves alone, whatever the state of the runqueue. -/
structure PassFrame (s s' : Sys) : Prop where
  sched : ∀ t, (s'.task t).toTaskSched = (s.task t).toTaskSched
  justGotForked : ∀ t, (s'.task t).justGotForked = (s.task t).justGotForked
  pOpptr : ∀ t, (s'.task t).pOpptr = (s.task t).pOpptr
  needResched : ∀ t, (s'.task t).needResched =
    if t = s.rq.curr then 0 else (s.task t).needResched
  state : ∀ t, (s'.task t).state = (s.task t).state ∨ (s'.task t).state = .running
  array : ∀ t, (s'.task t).array =
    if t = s.rq.curr ∧ s.current.GoesToSleep then none else (s.task t).array
  queues : s'.queues = if s.current.GoesToSleep then remove s.rq.curr s.queues else s.queues
  ptrs : SamePtrsUpToSwap s.rq.toRqPtrs s'.rq.toRqPtrs
  jiffies : s'.jiffies = s.jiffies
  tasklist : s'.tasklist = s.tasklist
  forking : s'.forking = s.forking
  curr : s'.rq.curr = s'.rq.idle ∨
    ∃ array prio, s'.rq.curr ∈ s'.queue array prio ∧ array ≠ s'.rq.expired

/-- **What a pass of `schedule` may change**, whatever the state. -/
theorem schedulePass_frame (h : s.schedulePass = some s') : s.PassFrame s' := by
  obtain ⟨s₁, next, s₂, hprev, hpick, rfl⟩ := schedulePass_eq_some h
  have hd := deactivatePrev_frame hprev
  have hp := pickNext_frame hpick
  set s' := s₂.switchTasks s.rq.curr next with hs'
  have htask : s'.task = (s₂.clearTskNeedResched s.rq.curr).task := by
    rw [hs', switchTasks]
    split <;> rfl
  have hptrs : SamePtrsUpToSwap s₂.rq.toRqPtrs s'.rq.toRqPtrs ∧ s'.rq.expired = s₂.rq.expired ∧
      s'.rq.curr = next ∧ s'.rq.arrays = s₂.rq.arrays ∧ s'.jiffies = s₂.jiffies ∧
      s'.tasklist = s₂.tasklist ∧ s'.forking = s₂.forking := by
    rw [hs', switchTasks]
    split
    · exact ⟨⟨rfl, rfl, rfl, .inl ⟨rfl, rfl⟩⟩, rfl, rfl, rfl, rfl, rfl, rfl⟩
    · next hne =>
      refine ⟨⟨rfl, rfl, rfl, .inl ⟨rfl, rfl⟩⟩, rfl, ?_, rfl, rfl, rfl, rfl⟩
      change s₂.rq.curr = next
      rw [hp.curr, hd.ptrs.curr]
      exact not_not.mp hne
  obtain ⟨hsame, hexpired, hcurr, harrays, hj, htl, hf⟩ := hptrs
  have hproj : ∀ {α : Type} (g : Task → α), (∀ t x, g { t with needResched := x } = g t) →
      ∀ t, g (s'.task t) = g (s₁.task t) := by
    intro α g hg t
    rw [htask, clearTskNeedResched, modify_proj g (hg _ _) t, hp.task]
  have hqueues : s'.queues = s₁.queues := by
    ext l
    simp only [queues, queue, harrays, hp.arrays]
  refine ⟨?_, ?_, ?_, ?_, ?_, ?_, ?_, ?_, ?_, ?_, ?_, ?_⟩
  · exact fun t => (hproj _ (fun _ _ => rfl) t).trans (hd.sched t)
  · exact fun t => (hproj _ (fun _ _ => rfl) t).trans (hd.justGotForked t)
  · exact fun t => (hproj (fun t => t.pOpptr) (fun _ _ => rfl) t).trans (hd.pOpptr t)
  · intro t
    rw [htask, clearTskNeedResched]
    by_cases ht : t = s.rq.curr
    · subst ht
      simp
    · simp [ht, hp.task, hd.needResched]
  · intro t
    rw [hproj (fun t => t.state) (fun _ _ => rfl) t]
    exact hd.state t
  · exact fun t => (hproj _ (fun _ _ => rfl) t).trans (hd.array t)
  · rw [hqueues, hd.queues]
  · exact (hd.ptrs.upToSwap.trans hp.ptrs).trans hsame
  · rw [hj, hp.jiffies, hd.jiffies]
  · rw [htl, hp.tasklist, hd.tasklist]
  · rw [hf, hp.forking, hd.forking]
  · rw [hcurr, hsame.idle, hp.ptrs.idle]
    rcases hp.next with hidle | ⟨array, prio, hmem, hne⟩
    · exact .inl hidle
    · refine .inr ⟨array, prio, ?_, by rw [hexpired]; exact hne⟩
      rw [queue, harrays, hp.arrays]
      exact hmem

/-- `schedule` repeats the pass: what holds after every pass holds after `schedule`. -/
theorem scheduleLoop_induct {P : Sys → Prop} (hpass : ∀ s s', P s → s.schedulePass = some s' → P s')
    {n : ℕ} (h : s.scheduleLoop n = some s') (hs : P s) : P s' := by
  induction n generalizing s with
  | zero => simp [scheduleLoop] at h
  | succ n ih =>
    simp only [scheduleLoop, Option.bind_eq_bind, Option.bind_eq_some_iff] at h
    obtain ⟨s₁, hs₁, h⟩ := h
    have hP := hpass _ _ hs hs₁
    split at h
    · exact ih h hP
    · obtain rfl := Option.some.inj h
      exact hP

theorem schedule_justGotForked (h : s.schedule = some s') (t : TaskId) :
    (s'.task t).justGotForked = (s.task t).justGotForked := by
  have hpass : ∀ s₁ s₂ : Sys, (s₁.task t).justGotForked = (s.task t).justGotForked →
      s₁.schedulePass = some s₂ → (s₂.task t).justGotForked = (s.task t).justGotForked :=
    fun _ _ hs hpass => ((schedulePass_frame hpass).justGotForked t).trans hs
  exact scheduleLoop_induct hpass h rfl

/-! ## A pass from a runqueue that agrees with itself -/

/-- `prev` can be taken off the runqueue if it has to be, and what is left agrees. -/
theorem RqAgree.deactivatePrev (h : s.RqAgree)
    (hidle : s.rq.curr = s.rq.idle → ¬s.current.GoesToSleep) :
    ∃ s₁, s.passBegin.deactivatePrev s.rq.curr = some s₁ ∧ s₁.Layout ∧
      s₁.rq.nrRunning = ∑ array, s₁.nrActives array ∧ (s₁.task s₁.rq.idle).array = none := by
  have hbegin : s.passBegin.RqAgree :=
    h.congr rfl (modify_proj (fun t => t.array) rfl)
      (fun t _ => modify_proj (fun t => t.prio) rfl t) rfl rfl rfl
  by_cases hsleep : s.current.GoesToSleep
  · -- only a queued task goes to sleep
    have hne : s.rq.curr ≠ s.rq.idle := fun hc => hidle hc hsleep
    obtain ⟨array, harray⟩ := Option.ne_none_iff_exists'.mp (h.curr.resolve_left hne)
    have hqueued : (s.passBegin.task s.rq.curr).array = some array := by
      rw [← harray]
      exact modify_proj (fun t => t.array) rfl _
    have hexcept := (hbegin.deactivate hqueued).modify fun t => { t with array := none }
    refine ⟨_, (deactivatePrev_of_asleep (s.passBegin_goesToSleep.mpr hsleep)).trans
      (deactivateTask_eq hqueued), hexcept.layout.toLayout (by simp), ?_, hexcept.idle_array⟩
    rw [hexcept.nrRunning, add_zero]
  · have hawake := deactivatePrev_of_awake fun hc => hsleep (s.passBegin_goesToSleep.mp hc)
    have hagree : (s.passBegin.modify s.rq.curr fun t => { t with state := .running }).RqAgree :=
      hbegin.congr rfl (modify_proj (fun t => t.array) rfl)
        (fun t _ => modify_proj (fun t => t.prio) rfl t) rfl rfl rfl
    exact ⟨_, hawake, hagree.layout, hagree.nrRunning, hagree.idle_array⟩

/-- A pass of `schedule` from a runqueue that agrees with itself: it picks a best task of the
state `s₁` in which `prev` has been deactivated. -/
structure PassFrom (s s₁ s' : Sys) (next : TaskId) (s₂ : Sys) : Prop where
  prev : s.passBegin.deactivatePrev s.rq.curr = some s₁
  frame : s.DeactivateFrame s₁
  layout : s₁.Layout
  nrRunning : s₁.rq.nrRunning = ∑ array, s₁.nrActives array
  idle_array : (s₁.task s₁.rq.idle).array = none
  pick : s₁.PickCase (next, s₂)
  switch : s' = s₂.switchTasks s.rq.curr next
  curr : s'.rq.curr = next

/-- `context_switch` makes the next task `current`. -/
theorem switchTasks_curr (s : Sys) (h : s.rq.curr = p) : (s.switchTasks p next).rq.curr = next := by
  unfold switchTasks
  split
  · rfl
  · next hne =>
    change s.rq.curr = next
    rw [h]
    exact not_not.mp hne

/-- **A pass of `schedule`** from a consistent runqueue leaves one. -/
theorem RqAgree.schedulePass (h : s.RqAgree)
    (hidle : s.rq.curr = s.rq.idle → ¬s.current.GoesToSleep) :
    ∃ s₁ s' next s₂, s.schedulePass = some s' ∧ s.PassFrom s₁ s' next s₂ ∧ s'.RqAgree := by
  obtain ⟨s₁, hprev, hlayout, hrunning, hidle₁⟩ := h.deactivatePrev hidle
  have hd := deactivatePrev_frame hprev
  obtain ⟨⟨next, s₂⟩, hpick, hcase⟩ := pickNext_cases hlayout hrunning
  have hp := pickNext_frame hpick
  have hcurr : (s₂.switchTasks s.rq.curr next).rq.curr = next :=
    switchTasks_curr s₂ (hp.curr.trans hd.ptrs.curr)
  refine ⟨s₁, s₂.switchTasks s.rq.curr next, next, s₂, ?_,
    ⟨hprev, hd, hlayout, hrunning, hidle₁, hcase, rfl, hcurr⟩, ?_⟩
  · unfold Sys.schedulePass
    simp only [Option.bind_eq_bind, Option.bind_eq_some_iff]
    exact ⟨s₁, hprev, ⟨next, s₂⟩, hpick, rfl⟩
  · have hrq : (s₂.switchTasks s.rq.curr next).rq.arrays = s₂.rq.arrays ∧
        (s₂.switchTasks s.rq.curr next).rq.nrRunning = s₂.rq.nrRunning ∧
        (s₂.switchTasks s.rq.curr next).rq.idle = s₂.rq.idle ∧
        (s₂.switchTasks s.rq.curr next).task = (s₂.clearTskNeedResched s.rq.curr).task := by
      unfold switchTasks
      split <;> exact ⟨rfl, rfl, rfl, rfl⟩
    obtain ⟨harrays, hrun, hidl, htask⟩ := hrq
    have harray : ∀ t, ((s₂.switchTasks s.rq.curr next).task t).array = (s₁.task t).array := by
      intro t
      rw [htask, clearTskNeedResched, modify_proj (fun t => t.array) rfl, hp.task]
    have hprio : ∀ t, ((s₂.switchTasks s.rq.curr next).task t).prio = (s₁.task t).prio := by
      intro t
      rw [htask, clearTskNeedResched, modify_proj (fun t => t.prio) rfl, hp.task]
    refine ⟨hlayout.congr (harrays.trans hp.arrays) harray fun t _ => hprio t, ?_, ?_, ?_⟩
    · rw [hrun, hp.nrRunning, hrunning]
      simp only [nrActives, harrays, hp.arrays]
    · rw [hidl, hp.ptrs.idle, harray, hidle₁]
    · rw [hcurr, hidl, hp.ptrs.idle, current, hcurr, harray]
      rcases hp.next with hidle | ⟨array, prio, hmem, -⟩
      · exact .inl hidle
      · right
        rw [(hlayout.mem_queue.mp hmem).1]
        exact Option.some_ne_none _

/-! ## `schedule` returns -/

/-- The idle task is always ready to run. -/
abbrev IdleRuns (s : Sys) : Prop := (s.task s.rq.idle).state = .running

theorem IdleRuns.not_goesToSleep (h : s.IdleRuns) (hcurr : s.rq.curr = s.rq.idle) :
    ¬s.current.GoesToSleep := by
  rw [current, hcurr]
  exact fun hc => hc.1 h

theorem PassFrame.idleRuns (h : s.PassFrame s') (hs : s.IdleRuns) : s'.IdleRuns := by
  rw [IdleRuns, h.ptrs.idle]
  rcases h.state s.rq.idle with hstate | hstate
  · rw [hstate, hs]
  · exact hstate

/-- The tasks that a pass of `schedule` can switch to. -/
def runnable (s : Sys) : Finset TaskId :=
  insert s.rq.idle (Finset.univ.biUnion fun array =>
    (levels array).biUnion fun l => (s.queues l).toFinset)

/-- The runnable tasks are the idle task and those in an array. -/
theorem RqAgree.mem_runnable (h : s.RqAgree) :
    t ∈ s.runnable ↔ t = s.rq.idle ∨ (s.task t).array ≠ none := by
  simp only [runnable, Finset.mem_insert, Finset.mem_biUnion, Finset.mem_univ, true_and,
    List.mem_toFinset]
  constructor
  · rintro (hidle | ⟨_, l, _, hmem⟩)
    · exact .inl hidle
    · right
      rw [(h.layout.mem_queue.mp hmem).1]
      exact Option.some_ne_none _
  · rintro (hidle | hne)
    · exact .inl hidle
    · right
      obtain ⟨array, harray⟩ := Option.ne_none_iff_exists'.mp hne
      exact ⟨array, (array, (s.task t).prio), mem_levels.mpr ⟨rfl, h.layout.range t hne⟩,
        h.layout.mem_queue.mpr ⟨harray, rfl⟩⟩

/-- At most `nr_running` tasks besides the idle one are runnable. -/
theorem RqAgree.card_runnable (h : s.RqAgree) : (s.runnable.card : ℤ) ≤ s.rq.nrRunning + 1 := by
  have hunion : ((Finset.univ.biUnion fun array =>
      (levels array).biUnion fun l => (s.queues l).toFinset).card : ℤ) ≤ s.rq.nrRunning := by
    rw [h.nrRunning]
    apply le_trans (Int.ofNat_le.mpr Finset.card_biUnion_le)
    rw [Nat.cast_sum]
    refine Finset.sum_le_sum fun array _ => ?_
    rw [h.layout.nrActive, count]
    apply le_trans (Int.ofNat_le.mpr Finset.card_biUnion_le)
    rw [Nat.cast_sum]
    exact Finset.sum_le_sum fun l _ => Int.ofNat_le.mpr (List.toFinset_card_le _)
  have hinsert := Finset.card_insert_le s.rq.idle (Finset.univ.biUnion fun array =>
    (levels array).biUnion fun l => (s.queues l).toFinset)
  rw [runnable]
  omega

/-- Each pass clears the flag of the task it takes the processor from; `F` are the tasks whose
flag may still be set. -/
theorem scheduleLoop_returns {F : Finset TaskId} {n : ℕ} (h : s.RqAgree) (hidle : s.IdleRuns)
    (hF : ∀ t ∈ s.runnable, (s.task t).needResched ≠ 0 → t ∈ F)
    (hn : F.card + (if s.rq.curr ∈ F then 0 else 1) ≤ n) : ∃ s', s.scheduleLoop n = some s' := by
  induction n generalizing s F with
  | zero =>
    split at hn
    · next hmem =>
      have := Finset.card_pos.mpr ⟨_, hmem⟩
      omega
    · omega
  | succ n ih =>
    obtain ⟨s₁, s', next, s₂, hpass, -, hagree⟩ :=
      h.schedulePass fun hc => hidle.not_goesToSleep hc
    have hframe := schedulePass_frame hpass
    rw [scheduleLoop, hpass]
    by_cases hresched : s'.current.needResched = 0
    · exact ⟨s', by simp [hresched]⟩
    · -- the new `current` is flagged, so that it is not the old one
      have hF' : ∀ t ∈ s'.runnable, (s'.task t).needResched ≠ 0 → t ∈ F.erase s.rq.curr := by
        intro t ht hflag
        rw [hframe.needResched] at hflag
        have hne : t ≠ s.rq.curr := by
          rintro rfl
          simp at hflag
        rw [if_neg hne] at hflag
        refine Finset.mem_erase.mpr ⟨hne, hF t ?_ hflag⟩
        rw [hagree.mem_runnable, hframe.ptrs.idle, hframe.array, if_neg fun hc => hne hc.1] at ht
        exact h.mem_runnable.mpr ht
      have hrunnable : s'.rq.curr ∈ s'.runnable := hagree.mem_runnable.mpr hagree.curr
      have hcurr : s'.rq.curr ∈ F.erase s.rq.curr := hF' _ hrunnable hresched
      have hcard : (F.erase s.rq.curr).card + (if s'.rq.curr ∈ F.erase s.rq.curr then 0 else 1)
          ≤ n := by
        rw [if_pos hcurr]
        by_cases hmem : s.rq.curr ∈ F
        · have := Finset.card_erase_of_mem hmem
          have := Finset.card_pos.mpr ⟨_, hmem⟩
          rw [if_pos hmem] at hn
          omega
        · rw [Finset.erase_eq_of_notMem hmem]
          rw [if_neg hmem] at hn
          omega
      obtain ⟨s'', hs''⟩ := ih hagree (hframe.idleRuns hidle) hF' hcard
      exact ⟨s'', by simpa [hresched] using hs''⟩

/-- **`schedule` returns**, and the runqueue it leaves agrees with itself. -/
theorem schedule_returns (h : s.RqAgree) (hidle : s.IdleRuns) :
    ∃ s', s.schedule = some s' ∧ s'.RqAgree := by
  have hcard := h.card_runnable
  have hn : s.runnable.card + (if s.rq.curr ∈ s.runnable then 0 else 1)
      ≤ s.rq.nrRunning.toNat + 3 := by
    split <;> omega
  obtain ⟨s', hs'⟩ := scheduleLoop_returns (F := s.runnable) h hidle (fun t ht _ => ht) hn
  refine ⟨s', hs', ?_⟩
  have hP : s'.RqAgree ∧ s'.IdleRuns := by
    refine scheduleLoop_induct (P := fun s => s.RqAgree ∧ s.IdleRuns) ?_ hs' ⟨h, hidle⟩
    rintro s s' ⟨hs, hi⟩ hpass
    obtain ⟨_, s₃, _, _, hpass', -, hagree⟩ := hs.schedulePass fun hc => hi.not_goesToSleep hc
    rw [hpass] at hpass'
    obtain rfl := Option.some.inj hpass'
    exact ⟨hagree, (schedulePass_frame hpass).idleRuns hi⟩
  exact hP.1

end Sys
end ShortSched
