import ShortSched.IdleBalance

/-!
# What `load_balance` does on any CPU

`load_balance` finds the busiest of any number of runqueues and pulls tasks one after the other,
while the queues it walks through change under it: one task when the CPU is idle, and up to half of
the difference otherwise.
-/

namespace ShortSched
namespace Smp

open General Sys

variable {s s' s'' : Smp} {busiest thisCpu cpu : ℕ} {idle : Bool} {array : PrioArrayPtr}
  {p t : TaskId} {ps ps' : List TaskId} {imbalance : ℤ} {seen seen' : TaskId → Prop} {r : Search}

/-! ## A sequence of pulls -/

/-- The tasks `ps` have been pulled. -/
structure Pulled (busiest thisCpu : ℕ) (ps : List TaskId) (s s' : Smp) : Prop where
  cpus : s'.cpuLogicalMap = s.cpuLogicalMap
  flags : s'.NoFlags
  nodup : ps.Nodup
  reach : ∀ p ∈ ps, ∃ array, s.Reachable busiest thisCpu array p
  arrives : ∀ p ∈ ps, s'.QueuedIn thisCpu (s.runqueues thisCpu).active p
  others : ∀ t, t ∉ ps → (s'.task t).cpu = (s.task t).cpu ∧ (s'.task t).array = (s.task t).array
  sched : ∀ t, (s'.task t).toTaskSched = (s.task t).toTaskSched
  can : ∀ t, s'.CanMigrateTask t busiest thisCpu ↔ s.CanMigrateTask t busiest thisCpu
  ptrs_busiest : (s'.runqueues busiest).toRqPtrs = { (s.runqueues busiest).toRqPtrs with
    nrRunning := (s.runqueues busiest).nrRunning - ps.length }
  ptrs_this : (s'.runqueues thisCpu).toRqPtrs = { (s.runqueues thisCpu).toRqPtrs with
    nrRunning := (s.runqueues thisCpu).nrRunning + ps.length }
  inv : ∀ cpu, s.RqInv cpu → s'.RqInv cpu

/-- A third runqueue does not notice a pull. -/
theorem RqInv.pulled_elsewhere (h : s.RqInv cpu) (hp : s.QueuedIn busiest array p)
    (hne : cpu ≠ busiest) (hne' : cpu ≠ thisCpu) : (s.pulled p array busiest thisCpu).RqInv cpu := by
  have hrq : (s.pulled p array busiest thisCpu).runqueues cpu = s.runqueues cpu := by
    simp only [pulled, Function.update_of_ne hne, Function.update_of_ne hne']
  have hself : ((s.pulled p array busiest thisCpu).task p).cpu = thisCpu := by
    rw [pulled_self]
  have hown : ∀ t, (((s.pulled p array busiest thisCpu).ownRq cpu).task t).array =
        ((s.ownRq cpu).task t).array ∧
      (((s.pulled p array busiest thisCpu).ownRq cpu).task t).prio =
        ((s.ownRq cpu).task t).prio := by
    intro t
    by_cases ht : t = p
    · subst ht
      rw [ownRq_array_of_ne (by rw [hself]; exact hne'.symm),
        ownRq_array_of_ne (by rw [hp.1]; exact hne.symm), ownRq_sched, ownRq_sched, pulled_self]
      exact ⟨rfl, rfl⟩
    · rw [ownRq_task_congr (pulled_other ht)]
      exact ⟨rfl, rfl⟩
  have harrays : ((s.pulled p array busiest thisCpu).ownRq cpu).rq.arrays =
      (s.ownRq cpu).rq.arrays := congrArg Runqueue.arrays hrq
  refine h.step (h.layout.congr harrays (fun t => (hown t).1) fun t _ => (hown t).2) ?_ ?_
    (h.ne_idle hp) ?_ (fun _ => pulled_other) fun hcpu => ?_
  · rw [hrq, nrActives_congr harrays, h.nrRunning]
  · rw [hrq]
    exact .refl _
  · rintro rfl
    exact hne (h.curr_cpu.symm.trans hp.1)
  · rw [hself] at hcpu
    exact absurd hcpu.symm hne'

namespace Pulled

/-- No task is pulled. -/
theorem nil (hflags : s.NoFlags) : Pulled busiest thisCpu [] s s where
  cpus := rfl
  flags := hflags
  nodup := List.nodup_nil
  reach _ hp := absurd hp List.not_mem_nil
  arrives _ hp := absurd hp List.not_mem_nil
  others _ _ := ⟨rfl, rfl⟩
  sched _ := rfl
  can _ := Iff.rfl
  ptrs_busiest := by rw [List.length_nil, Nat.cast_zero, sub_zero]
  ptrs_this := by rw [List.length_nil, Nat.cast_zero, add_zero]
  inv _ h := h

/-- The flag of `current` aside, two states agree. -/
theorem congr (h : Pulled busiest thisCpu ps s s') (hsame : SameQueues s' s'')
    (hcpus : s''.cpuLogicalMap = s'.cpuLogicalMap) (hflags : s''.NoFlags)
    (hcan : ∀ t, s''.CanMigrateTask t busiest thisCpu ↔ s'.CanMigrateTask t busiest thisCpu) :
    Pulled busiest thisCpu ps s s'' where
  cpus := hcpus.trans h.cpus
  flags := hflags
  nodup := h.nodup
  reach := h.reach
  arrives p hp := by
    rw [QueuedIn, hsame.cpu, hsame.array]
    exact h.arrives p hp
  others t ht := by
    rw [hsame.cpu, hsame.array]
    exact h.others t ht
  sched t := (hsame.sched t).trans (h.sched t)
  can t := (hcan t).trans (h.can t)
  ptrs_busiest := by rw [hsame.runqueues, h.ptrs_busiest]
  ptrs_this := by rw [hsame.runqueues, h.ptrs_this]
  inv cpu hcpu := (h.inv cpu hcpu).sameQueues hsame

/-- One task is pulled. -/
theorem single (hne : busiest ≠ thisCpu) (hbusiest : s.RqInv busiest) (hflags : s.NoFlags)
    (hp : s.Reachable busiest thisCpu array p) :
    Pulled busiest thisCpu [p] s (s.pullTask p array busiest thisCpu) := by
  obtain ⟨harray, hqueued, hcan⟩ := hp
  obtain ⟨hok, hclass⟩ := hbusiest.other_task hqueued harray
  have hflags' : (s.pulled p array busiest thisCpu).NoFlags := by
    intro t
    by_cases ht : t = p
    · rw [ht, pulled_self]
      exact hflags p
    · rw [pulled_other ht]
      exact hflags t
  have htask : ∀ {α : Type} (g : Task → α), (∀ t cpu array, g { t with cpu, array } = g t) →
      ∀ t, g ((s.pulled p array busiest thisCpu).task t) = g (s.task t) := by
    intro α g hg t
    by_cases ht : t = p
    · rw [ht, pulled_self]
      exact hg _ _ _
    · rw [pulled_other ht]
  have hpulled : Pulled busiest thisCpu [p] s (s.pulled p array busiest thisCpu) := by
    refine {
      cpus := rfl
      flags := hflags'
      nodup := List.nodup_singleton p
      reach := fun q hq => ?reach
      arrives := fun q hq => ?arrives
      others := fun t ht => ?others
      sched := htask (fun t => t.toTaskSched) fun _ _ _ => rfl
      can := fun t => ?can
      ptrs_busiest := ptrs_pulled_busiest hne p array s
      ptrs_this := ptrs_pulled_this p array busiest thisCpu s
      inv := fun cpu hcpu => ?inv }
    case reach =>
      rw [List.mem_singleton.mp hq]
      exact ⟨array, harray, hqueued, hcan⟩
    case arrives =>
      rw [List.mem_singleton.mp hq, QueuedIn, pulled_self]
      exact ⟨rfl, rfl⟩
    case others =>
      rw [pulled_other (List.mem_singleton.not.mp ht)]
      exact ⟨rfl, rfl⟩
    case can =>
      rw [CanMigrateTask, CanMigrateTask, htask (fun t => t.sleepTimestamp) fun _ _ _ => rfl,
        htask (fun t => t.cpusAllowed) fun _ _ _ => rfl, ptrs_pulled_busiest hne p array s]
      exact Iff.rfl
    case inv =>
      -- the runqueue that loses the task, the one that gets it, and the others
      by_cases hc : cpu = busiest
      · subst hc
        exact hcpu.pulled_busiest hqueued hcan.2.1 hne
      by_cases hc' : cpu = thisCpu
      · subst hc'
        exact hcpu.pulled_this hbusiest hqueued hok hclass hne
      · exact hcpu.pulled_elsewhere hqueued hc hc'
  rcases pullTask_eq hflags hne p array with h | h
  · rwa [h]
  · rw [h]
    refine hpulled.congr (sameQueues_setNeedResched _ _) rfl ?_ fun t => ?_
    · intro t
      rw [setNeedResched_proj (fun t => t.justGotForked) fun _ => rfl]
      exact hflags' t
    · rw [CanMigrateTask, CanMigrateTask, setNeedResched_proj (fun t => t.sleepTimestamp) fun _ => rfl,
        setNeedResched_proj (fun t => t.cpusAllowed) fun _ => rfl,
        (sameQueues_setNeedResched thisCpu _).runqueues]
      exact Iff.rfl

/-- A task that has not been pulled is where it was. -/
theorem queuedIn_iff (h : Pulled busiest thisCpu ps s s') (ht : t ∉ ps) :
    s'.QueuedIn cpu array t ↔ s.QueuedIn cpu array t := by
  rw [QueuedIn, (h.others t ht).1, (h.others t ht).2]

/-- A task that has been pulled is not queued on the other CPU any more. -/
theorem not_mem (h : Pulled busiest thisCpu ps s s') (hne : busiest ≠ thisCpu)
    (ht : s'.QueuedIn busiest array t) : t ∉ ps :=
  fun hc => hne (ht.1.symm.trans (h.arrives t hc).1)

theorem reachable_iff (h : Pulled busiest thisCpu ps s s') (ht : t ∉ ps) :
    s'.Reachable busiest thisCpu array t ↔ s.Reachable busiest thisCpu array t := by
  rw [Reachable, h.queuedIn_iff ht, h.can, h.ptrs_busiest]
  exact Iff.rfl

theorem trans (h : Pulled busiest thisCpu ps s s') (h' : Pulled busiest thisCpu ps' s' s'')
    (hne : busiest ≠ thisCpu) : Pulled busiest thisCpu (ps ++ ps') s s'' := by
  have hdisjoint : ∀ p ∈ ps', p ∉ ps := by
    intro p hp
    obtain ⟨array, -, hqueued, -⟩ := h'.reach p hp
    exact h.not_mem hne hqueued
  have hactive : (s'.runqueues thisCpu).active = (s.runqueues thisCpu).active := by rw [h.ptrs_this]
  refine {
    cpus := h'.cpus.trans h.cpus
    flags := h'.flags
    nodup := ?nodup
    reach := fun p hp => ?reach
    arrives := fun p hp => ?arrives
    others := fun t ht => ?others
    sched := fun t => (h'.sched t).trans (h.sched t)
    can := fun t => (h'.can t).trans (h.can t)
    ptrs_busiest := ?ptrs_busiest
    ptrs_this := ?ptrs_this
    inv := fun cpu hcpu => h'.inv cpu (h.inv cpu hcpu) }
  case nodup =>
    exact List.nodup_append.mpr ⟨h.nodup, h'.nodup, fun p hp q hq hpq => hdisjoint q hq (hpq ▸ hp)⟩
  case reach =>
    rcases List.mem_append.mp hp with hp | hp
    · exact h.reach p hp
    · obtain ⟨array, hreach⟩ := h'.reach p hp
      exact ⟨array, (h.reachable_iff (hdisjoint p hp)).mp hreach⟩
  case arrives =>
    by_cases hp' : p ∈ ps'
    · rw [← hactive]
      exact h'.arrives p hp'
    · rw [QueuedIn, (h'.others p hp').1, (h'.others p hp').2]
      exact h.arrives p ((List.mem_append.mp hp).resolve_right hp')
  case others =>
    rw [List.mem_append, not_or] at ht
    rw [(h'.others t ht.2).1, (h'.others t ht.2).2]
    exact h.others t ht.1
  case ptrs_busiest =>
    rw [h'.ptrs_busiest, h.ptrs_busiest, List.length_append, Nat.cast_add, sub_sub]
  case ptrs_this =>
    rw [h'.ptrs_this, h.ptrs_this, List.length_append, Nat.cast_add, add_assoc]

end Pulled

/-! ## The search -/

/-- How many tasks the search may pull. -/
def limit (idle : Bool) (imbalance : ℤ) : ℤ := if idle then 1 else imbalance

/-- The outcome of a search through the tasks `seen`: it has pulled as many of them as it may, or
all of them that may be migrated. -/
inductive Found (busiest thisCpu : ℕ) (idle : Bool) (imbalance : ℤ) (seen : TaskId → Prop)
    (s : Smp) : Search → Prop
  | full (ps : List TaskId) (s' : Smp) (hpulled : Pulled busiest thisCpu ps s s')
      (hseen : ∀ p ∈ ps, seen p) (hlen : (ps.length : ℤ) = limit idle imbalance) :
      Found busiest thisCpu idle imbalance seen s (.outUnlock s')
  | rest (ps : List TaskId) (s' : Smp) (hpulled : Pulled busiest thisCpu ps s s')
      (hseen : ∀ p ∈ ps, seen p) (hlen : (ps.length : ℤ) < limit idle imbalance)
      (hnone : ∀ p, seen p → p ∉ ps → ¬s.CanMigrateTask p busiest thisCpu) :
      Found busiest thisCpu idle imbalance seen s (.goOn (imbalance - ps.length) s')

/-- What is left of the limit. -/
theorem limit_sub (hlen : (ps.length : ℤ) < limit idle imbalance) :
    ps.length + limit idle (imbalance - ps.length) = limit idle imbalance := by
  cases idle with
  | true =>
    change (ps.length : ℤ) < 1 at hlen
    show (ps.length : ℤ) + 1 = 1
    omega
  | false =>
    show (ps.length : ℤ) + (imbalance - ps.length) = imbalance
    omega

namespace Found

/-- Nothing to look at. -/
theorem nothing (hflags : s.NoFlags) (hlimit : 0 < limit idle imbalance)
    (hnone : ∀ p, seen p → ¬s.CanMigrateTask p busiest thisCpu) :
    Found busiest thisCpu idle imbalance seen s (.goOn imbalance s) := by
  have hrest := rest [] s (.nil hflags) (fun _ hp => absurd hp List.not_mem_nil) hlimit
    fun p hp _ => hnone p hp
  rwa [List.length_nil, Nat.cast_zero, sub_zero] at hrest

/-- The search goes on after some pulls. -/
theorem trans (hpulled : Pulled busiest thisCpu ps s s') (hne : busiest ≠ thisCpu)
    (hseen : ∀ p ∈ ps, seen p) (hlen : (ps.length : ℤ) < limit idle imbalance)
    (hlater : Found busiest thisCpu idle (imbalance - ps.length) seen' s' r)
    (hsub : ∀ p, seen' p → seen p)
    (hrest : ∀ p, seen p → p ∉ ps → seen' p ∨ ¬s.CanMigrateTask p busiest thisCpu) :
    Found busiest thisCpu idle imbalance seen s r := by
  have hmem : ∀ ps', (∀ p ∈ ps', seen' p) → ∀ p ∈ ps ++ ps', seen p := by
    intro ps' hseen' p hp
    rcases List.mem_append.mp hp with hp | hp
    · exact hseen p hp
    · exact hsub p (hseen' p hp)
  have hsum := limit_sub hlen
  cases hlater with
  | full ps' s'' hpulled' hseen' hlen' =>
    refine .full _ s'' (hpulled.trans hpulled' hne) (hmem ps' hseen') ?_
    rw [List.length_append, Nat.cast_add, hlen', hsum]
  | rest ps' s'' hpulled' hseen' hlen' hnone' =>
    have hlen'' : ((ps ++ ps').length : ℤ) < limit idle imbalance := by
      rw [List.length_append, Nat.cast_add]
      omega
    have hall := rest _ s'' (hpulled.trans hpulled' hne) (hmem ps' hseen') hlen''
      fun p hp hnot => by
        rw [List.mem_append, not_or] at hnot
        rcases hrest p hp hnot.1 with hp | hcan
        · rw [← hpulled.can]
          exact hnone' p hp hnot.2
        · exact hcan
    rwa [List.length_append, Nat.cast_add, ← sub_sub] at hall

end Found

/-- `skip_queue:` -/
theorem skipQueue_spec (tasks : List TaskId) (hne : busiest ≠ thisCpu) (hbusiest : s.RqInv busiest)
    (hflags : s.NoFlags) (hnodup : tasks.Nodup) (hlimit : 0 < limit idle imbalance)
    (harray : array = (s.runqueues busiest).expired ∨ array = (s.runqueues busiest).active)
    (hqueued : ∀ p ∈ tasks, s.QueuedIn busiest array p) :
    Found busiest thisCpu idle imbalance (· ∈ tasks) s
      (skipQueue busiest thisCpu idle array tasks imbalance s) := by
  induction tasks generalizing imbalance s with
  | nil => exact .nothing hflags hlimit fun _ hp => absurd hp List.not_mem_nil
  | cons tmp rest ih =>
    obtain ⟨htmp, hrest⟩ := List.nodup_cons.mp hnodup
    rw [skipQueue]
    by_cases hcan : s.CanMigrateTask tmp busiest thisCpu
    · rw [if_neg (not_not.mpr hcan)]
      have hpull : Pulled busiest thisCpu [tmp] s (s.pullTask tmp array busiest thisCpu) :=
        .single hne hbusiest hflags ⟨harray, hqueued tmp List.mem_cons_self, hcan⟩
      have hseen : ∀ p ∈ [tmp], p ∈ tmp :: rest :=
        fun p hp => List.mem_singleton.mp hp ▸ List.mem_cons_self
      dsimp only
      split
      · next hmore =>
        obtain ⟨rfl, hmore⟩ := hmore
        have hlen : (([tmp] : List TaskId).length : ℤ) < limit false imbalance := by
          change 0 < imbalance at hlimit
          show ((1 : ℕ) : ℤ) < imbalance
          omega
        -- the rest of the queue, with one task less to pull
        refine .trans hpull hne hseen hlen (ih (hpull.inv _ hbusiest) hpull.flags hrest ?_ ?_ ?_)
          (fun p hp => List.mem_cons_of_mem _ hp) fun p hp hnot => ?_
        · have hsum := limit_sub hlen
          change _ + (imbalance - 1) = imbalance at hsum
          change 0 < imbalance at hlimit
          show 0 < imbalance - 1
          omega
        · rw [hpull.ptrs_busiest]
          exact harray
        · intro p hp
          rw [hpull.queuedIn_iff]
          · exact hqueued p (List.mem_cons_of_mem _ hp)
          · rw [List.mem_singleton]
            rintro rfl
            exact htmp hp
        · left
          rw [List.mem_singleton] at hnot
          exact (List.mem_cons.mp hp).resolve_left hnot
      · next hmore =>
        refine .full [tmp] _ hpull hseen ?_
        unfold limit at *
        cases idle with
        | true => rfl
        | false =>
          rw [not_and, not_not] at hmore
          have hlast := hmore rfl
          simp only [Bool.false_eq_true, if_false, List.length_singleton, Nat.cast_one]
          omega
    · rw [if_pos hcan]
      refine .trans (.nil hflags) hne (fun _ hp => absurd hp List.not_mem_nil) hlimit ?_
        (fun p hp => List.mem_cons_of_mem tmp hp) fun p hp _ => ?_
      · rw [List.length_nil, Nat.cast_zero, sub_zero]
        exact ih hbusiest hflags hrest hlimit harray fun p hp => hqueued p (List.mem_cons_of_mem _ hp)
      · rcases List.mem_cons.mp hp with rfl | hp
        · exact .inr hcan
        · exact .inl hp

/-- `skip_bitmap:` looks at the tasks of the priority `idx` and worse. -/
theorem skipBitmap_spec (hne : busiest ≠ thisCpu) (n : ℕ) (idx : ℤ)
    (hidx : 0 ≤ idx ∧ idx ≤ maxPrio) (hn : maxPrio < idx + n) (hbusiest : s.RqInv busiest)
    (hflags : s.NoFlags) (hlimit : 0 < limit idle imbalance)
    (harray : array = (s.runqueues busiest).expired ∨ array = (s.runqueues busiest).active) :
    ∃ r, skipBitmap busiest thisCpu idle array n idx imbalance s = some r ∧
      Found busiest thisCpu idle imbalance
        (fun p => s.QueuedIn busiest array p ∧ idx ≤ (s.task p).prio) s r := by
  induction n generalizing idx imbalance s with
  | zero => omega
  | succ n ih =>
    rw [skipBitmap]
    generalize hnext : (if idx = 0 then _ else _) = next
    obtain ⟨⟨hge, hle⟩, hlow, hset⟩ := nextBit_spec hidx hnext
    have hbitmap := hbusiest.bitmapOk array
    -- nothing waits below `next`
    have hempty : ∀ p, s.QueuedIn busiest array p → idx ≤ (s.task p).prio →
        next ≤ (s.task p).prio := by
      intro p hp hprio
      by_contra hlt
      have hrange := hbusiest.range hp
      have hmem := hbusiest.mem_queue.mpr ⟨hp, rfl⟩
      have hbit := hlow _ hprio (by omega)
      rw [(hbitmap _ hrange.1 hrange.2).mpr (List.ne_nil_of_mem hmem)] at hbit
      cases hbit
    by_cases hend : next = maxPrio
    · refine ⟨_, if_pos hend, .nothing hflags hlimit ?_⟩
      rintro p ⟨hp, hprio⟩
      have hle := hempty p hp hprio
      have hrange := hbusiest.range hp
      omega
    rw [if_neg hend]
    have hqueue : ((s.runqueues busiest).arrays array).queue next ≠ [] :=
      (hbitmap next (by omega) (by omega)).mp (hset (by omega))
    obtain ⟨curr, rest, hrev⟩ :=
      List.exists_cons_of_ne_nil (List.reverse_eq_nil_iff.not.mpr hqueue)
    have hmem : ∀ p, p ∈ curr :: rest ↔ s.QueuedIn busiest array p ∧ (s.task p).prio = next := by
      intro p
      rw [← hrev, List.mem_reverse, hbusiest.mem_queue]
    have hnodup : (curr :: rest).Nodup := by
      rw [← hrev, List.nodup_reverse]
      exact hbusiest.layout.placed.nodup (array, next)
    have hfound : Found busiest thisCpu idle imbalance (· ∈ curr :: rest) s
        (skipQueue busiest thisCpu idle array (curr :: rest) imbalance s) :=
      skipQueue_spec _ hne hbusiest hflags hnodup hlimit harray fun p hp => ((hmem p).mp hp).1
    have hsub : ∀ p ∈ curr :: rest, s.QueuedIn busiest array p ∧ idx ≤ (s.task p).prio := by
      intro p hp
      obtain ⟨hp, hprio⟩ := (hmem p).mp hp
      exact ⟨hp, by omega⟩
    rw [hrev]
    dsimp only
    generalize skipQueue busiest thisCpu idle array (curr :: rest) imbalance s = found at hfound ⊢
    cases hfound with
    | full ps s' hpulled hseen hlen =>
      exact ⟨_, rfl, .full ps s' hpulled (fun p hp => hsub p (hseen p hp)) hlen⟩
    | rest ps s' hpulled hseen hlen hnone =>
      dsimp only
      have hsum := limit_sub hlen
      have harray' : array = (s'.runqueues busiest).expired ∨
          array = (s'.runqueues busiest).active := by
        rw [hpulled.ptrs_busiest]
        exact harray
      have hlimit' : 0 < limit idle (imbalance - ps.length) := by omega
      obtain ⟨r, hr, hlater⟩ := ih (next + 1) (by omega) (by omega) (hpulled.inv _ hbusiest)
        hpulled.flags hlimit' harray'
      refine ⟨r, hr, .trans hpulled hne (fun p hp => hsub p (hseen p hp)) hlen hlater ?_ ?_⟩
      · rintro p ⟨hp, hprio⟩
        rw [hpulled.queuedIn_iff (hpulled.not_mem hne hp)] at hp
        rw [hpulled.sched] at hprio
        exact ⟨hp, by omega⟩
      · rintro p ⟨hp, hprio⟩ hnot
        have hle := hempty p hp hprio
        by_cases hhere : (s.task p).prio = next
        · exact .inr (hnone p ((hmem p).mpr ⟨hp, hhere⟩) hnot)
        · left
          rw [hpulled.queuedIn_iff hnot, hpulled.sched]
          exact ⟨hp, by omega⟩

/-- `new_array:` -/
theorem newArray_spec (hne : busiest ≠ thisCpu) (hbusiest : s.RqInv busiest) (hflags : s.NoFlags)
    (hlimit : 0 < limit idle imbalance)
    (harray : array = (s.runqueues busiest).expired ∨ array = (s.runqueues busiest).active) :
    ∃ r, newArray busiest thisCpu idle array imbalance s = some r ∧
      Found busiest thisCpu idle imbalance (s.QueuedIn busiest array) s r := by
  obtain ⟨r, hr, hfound⟩ := skipBitmap_spec hne 141 0 (by decide) (by decide) hbusiest hflags hlimit
    harray
  have hseen : (fun p => s.QueuedIn busiest array p ∧ 0 ≤ (s.task p).prio) =
      s.QueuedIn busiest array :=
    funext fun p => propext (and_iff_left_of_imp fun hp => (hbusiest.range hp).1)
  rw [hseen] at hfound
  exact ⟨r, hr, hfound⟩

/-- What the search of both arrays does: it pulls as many tasks of `active` and `expired` as it may,
or all of them that may be migrated. -/
structure Searches (busiest thisCpu : ℕ) (limit : ℤ) (ps : List TaskId) (s s' : Smp) : Prop
    extends Pulled busiest thisCpu ps s s' where
  atMost : (ps.length : ℤ) ≤ limit
  rest : (ps.length : ℤ) < limit → ∀ array p, s.Reachable busiest thisCpu array p → p ∈ ps

/-- **The search** -/
theorem searchTasks_spec (hne : busiest ≠ thisCpu) (hbusiest : s.RqInv busiest)
    (hflags : s.NoFlags) (hlimit : 0 < limit idle imbalance) :
    ∃ s' ps, searchTasks busiest thisCpu idle imbalance s = some s' ∧
      Searches busiest thisCpu (limit idle imbalance) ps s s' := by
  have hne' : (s.runqueues busiest).active ≠ (s.runqueues busiest).expired := (ptrs_ne _).1
  unfold searchTasks
  by_cases hexpired : ((s.runqueues busiest).arrays (s.runqueues busiest).expired).nrActive = 0
  · -- `expired` is empty
    obtain ⟨r, hr, hfound⟩ := newArray_spec hne hbusiest hflags hlimit (.inr rfl)
    simp only [hexpired, ne_eq, not_true_eq_false, if_false, hr, Option.bind_eq_bind,
      Option.bind_some]
    cases hfound with
    | full ps s' hpulled _ hlen =>
      exact ⟨s', ps, rfl, hpulled, hlen.le, fun hlt => absurd hlen hlt.ne⟩
    | rest ps s' hpulled _ hlen hnone =>
      refine ⟨s', ps, if_neg hne', hpulled, hlen.le, ?_⟩
      rintro _ array p ⟨rfl | rfl, hqueued, hcan⟩
      · exact absurd hqueued (hbusiest.not_queued hexpired p)
      · by_contra hnot
        exact hnone p hqueued hnot hcan
  · obtain ⟨r, hr, hfound⟩ := newArray_spec hne hbusiest hflags hlimit (.inl rfl)
    simp only [hexpired, ne_eq, not_false_eq_true, if_true, hr, Option.bind_eq_bind,
      Option.bind_some]
    cases hfound with
    | full ps s' hpulled _ hlen =>
      exact ⟨s', ps, rfl, hpulled, hlen.le, fun hlt => absurd hlen hlt.ne⟩
    | rest ps s' hpulled _ hlen hnone =>
      -- `active` is searched with what is left of the imbalance
      have hsum := limit_sub hlen
      have hlimit' : 0 < limit idle (imbalance - ps.length) := by omega
      have hactive : (s'.runqueues busiest).active = (s.runqueues busiest).active := by
        rw [hpulled.ptrs_busiest]
      obtain ⟨r', hr', hlater⟩ := newArray_spec hne (hpulled.inv _ hbusiest) hpulled.flags hlimit'
        (.inr rfl)
      rw [hactive] at hr'
      have hall : Found busiest thisCpu idle imbalance (fun p => ∃ array,
          (array = (s.runqueues busiest).expired ∨ array = (s.runqueues busiest).active) ∧
            s.QueuedIn busiest array p) s r' := by
        refine .trans hpulled hne ?_ hlen hlater (fun p hp => ?_) ?_
        · intro p hp
          obtain ⟨array, harray, hqueued, -⟩ := hpulled.reach p hp
          exact ⟨array, harray, hqueued⟩
        · rw [hpulled.queuedIn_iff (hpulled.not_mem hne hp), hactive] at hp
          exact ⟨_, .inr rfl, hp⟩
        · rintro p ⟨array, rfl | rfl, hqueued⟩ hnot
          · exact .inr (hnone p hqueued hnot)
          · left
            rwa [hpulled.queuedIn_iff hnot, hactive]
      simp only [hr', Option.bind_some]
      cases hall with
      | full ps s' hpulled _ hlen =>
        exact ⟨s', ps, rfl, hpulled, hlen.le, fun hlt => absurd hlen hlt.ne⟩
      | rest ps s' hpulled _ hlen hnone =>
        refine ⟨s', ps, rfl, hpulled, hlen.le, ?_⟩
        rintro _ array p ⟨harray, hqueued, hcan⟩
        by_contra hnot
        exact hnone p ⟨array, harray, hqueued⟩ hnot hcan

/-! ## The busiest runqueue -/

/-- The load of a runqueue that `load_balance` compares: the smaller one of its length and its length
at the time of the last call, or its length if this CPU is idle. -/
def load (thisCpu : ℕ) (idle : Bool) (s : Smp) (cpu : ℕ) : ℤ :=
  if idle ∨ (s.runqueues cpu).nrRunning < s.prevNrRunning thisCpu cpu then
    (s.runqueues cpu).nrRunning
  else s.prevNrRunning thisCpu cpu

theorem load_le (thisCpu : ℕ) (idle : Bool) (s : Smp) (cpu : ℕ) :
    s.load thisCpu idle cpu ≤ (s.runqueues cpu).nrRunning := by
  unfold load
  split
  · exact le_refl _
  · next h =>
    rw [not_or, not_lt] at h
    exact h.2

/-- The CPU whose runqueue `load_balance` takes for the busiest one: the first of those with the
greatest load above 1, this CPU left out. -/
structure Busiest (thisCpu : ℕ) (idle : Bool) (s : Smp) (busiest : ℕ) : Prop where
  mem : busiest ∈ s.cpuLogicalMap
  ne : busiest ≠ thisCpu
  two : 1 < s.load thisCpu idle busiest
  greatest : ∀ cpu ∈ s.cpuLogicalMap, cpu ≠ thisCpu →
    s.load thisCpu idle cpu ≤ s.load thisCpu idle busiest
  first : ∀ cpu ∈ s.cpuLogicalMap, cpu ≠ thisCpu →
    s.cpuLogicalMap.idxOf cpu < s.cpuLogicalMap.idxOf busiest →
      s.load thisCpu idle cpu < s.load thisCpu idle busiest

/-- There is at most one. -/
theorem Busiest.unique {busiest' : ℕ} (h : Busiest thisCpu idle s busiest)
    (h' : Busiest thisCpu idle s busiest') : busiest = busiest' := by
  have hle := h.greatest busiest' h'.mem h'.ne
  have hge := h'.greatest busiest h.mem h.ne
  rcases lt_trichotomy (s.cpuLogicalMap.idxOf busiest) (s.cpuLogicalMap.idxOf busiest')
    with hlt | heq | hgt
  · exact absurd hle (not_le.mpr (h'.first busiest h.mem h.ne hlt))
  · exact (List.idxOf_inj h.mem).mp heq
  · exact absurd hge (not_le.mpr (h.first busiest' h'.mem h'.ne hgt))

/-- What the loop over the runqueues `cpus` makes of its variables `busiest` and `max_load`. -/
inductive Best (thisCpu : ℕ) (idle : Bool) (s : Smp) (cpus : List ℕ) (best : Option ℕ)
    (maxLoad : ℤ) : Option ℕ → ℤ → Prop
  | kept (hnone : ∀ cpu ∈ cpus, cpu ≠ thisCpu → s.load thisCpu idle cpu ≤ maxLoad) :
      Best thisCpu idle s cpus best maxLoad best maxLoad
  | found (busiest : ℕ) (hmem : busiest ∈ cpus) (hne : busiest ≠ thisCpu)
      (hmore : maxLoad < s.load thisCpu idle busiest)
      (hall : ∀ cpu ∈ cpus, cpu ≠ thisCpu →
        s.load thisCpu idle cpu ≤ s.load thisCpu idle busiest)
      (hfirst : ∀ cpu ∈ cpus, cpu ≠ thisCpu → cpus.idxOf cpu < cpus.idxOf busiest →
        s.load thisCpu idle cpu < s.load thisCpu idle busiest) :
      Best thisCpu idle s cpus best maxLoad (some busiest) (s.load thisCpu idle busiest)

/-- A runqueue in front of the rest that is not taken. -/
theorem Best.skip {cpus : List ℕ} {best best' : Option ℕ} {maxLoad maxLoad' : ℤ}
    (h : Best thisCpu idle s cpus best maxLoad best' maxLoad') (hnot : cpu ∉ cpus)
    (hle : cpu ≠ thisCpu → s.load thisCpu idle cpu ≤ maxLoad) :
    Best thisCpu idle s (cpu :: cpus) best maxLoad best' maxLoad' := by
  cases h with
  | kept hnone => exact .kept (List.forall_mem_cons.mpr ⟨hle, hnone⟩)
  | found busiest hmem hne hmore hall hfirst =>
    refine .found busiest (List.mem_cons_of_mem _ hmem) hne hmore
      (List.forall_mem_cons.mpr ⟨fun h => (hle h).trans hmore.le, hall⟩)
      (List.forall_mem_cons.mpr ⟨fun h _ => (hle h).trans_lt hmore, fun c hc hc' hlt => ?_⟩)
    rw [List.idxOf_cons_ne _ (ne_of_mem_of_not_mem hc hnot).symm,
      List.idxOf_cons_ne _ (ne_of_mem_of_not_mem hmem hnot).symm] at hlt
    exact hfirst c hc hc' (Nat.lt_of_succ_lt_succ hlt)

/-- A runqueue in front of the rest that is taken. -/
theorem Best.take {cpus : List ℕ} {best best' : Option ℕ} {maxLoad maxLoad' : ℤ}
    (h : Best thisCpu idle s cpus (some cpu) (s.load thisCpu idle cpu) best' maxLoad')
    (hnot : cpu ∉ cpus) (hne : cpu ≠ thisCpu) (hmore : maxLoad < s.load thisCpu idle cpu) :
    Best thisCpu idle s (cpu :: cpus) best maxLoad best' maxLoad' := by
  cases h with
  | kept hnone =>
    refine .found cpu List.mem_cons_self hne hmore
      (List.forall_mem_cons.mpr ⟨fun _ => le_rfl, hnone⟩) fun c _ _ hlt => ?_
    rw [List.idxOf_cons_self] at hlt
    exact absurd hlt (Nat.not_lt_zero _)
  | found busiest hmem hne' hmore' hall hfirst =>
    refine .found busiest (List.mem_cons_of_mem _ hmem) hne' (hmore.trans hmore')
      (List.forall_mem_cons.mpr ⟨fun _ => hmore'.le, hall⟩)
      (List.forall_mem_cons.mpr ⟨fun _ _ => hmore', fun c hc hc' hlt => ?_⟩)
    rw [List.idxOf_cons_ne _ (ne_of_mem_of_not_mem hc hnot).symm,
      List.idxOf_cons_ne _ (ne_of_mem_of_not_mem hmem hnot).symm] at hlt
    exact hfirst c hc hc' (Nat.lt_of_succ_lt_succ hlt)

/-- The loop over the rest of the runqueues. -/
theorem foldl_considerRq (thisCpu : ℕ) (idle : Bool) (cpus : List ℕ) (hnodup : cpus.Nodup)
    (prev : ℕ → ℕ → ℤ) (hprev : ∀ cpu ∈ cpus, prev thisCpu cpu = s.prevNrRunning thisCpu cpu)
    (best : Option ℕ) (maxLoad : ℤ) :
    ∃ best' maxLoad' prev', cpus.foldl (considerRq thisCpu idle)
        (best, maxLoad, { s with prevNrRunning := prev }) =
          (best', maxLoad', { s with prevNrRunning := prev' }) ∧
      Best thisCpu idle s cpus best maxLoad best' maxLoad' := by
  induction cpus generalizing prev best maxLoad with
  | nil => exact ⟨best, maxLoad, prev, rfl, .kept fun _ h => absurd h List.not_mem_nil⟩
  | cons cpu cpus ih =>
    obtain ⟨hnot, hnodup⟩ := List.nodup_cons.mp hnodup
    set prev₁ := Function.update prev thisCpu
      (Function.update (prev thisCpu) cpu (s.runqueues cpu).nrRunning) with hprev₁
    have hload : s.load thisCpu idle cpu = if idle ∨ (s.runqueues cpu).nrRunning < prev thisCpu cpu
        then (s.runqueues cpu).nrRunning else prev thisCpu cpu := by
      rw [hprev cpu List.mem_cons_self]
      rfl
    have hround : considerRq thisCpu idle (best, maxLoad, { s with prevNrRunning := prev }) cpu =
        if s.load thisCpu idle cpu > maxLoad ∧ cpu ≠ thisCpu then
          (some cpu, s.load thisCpu idle cpu, { s with prevNrRunning := prev₁ })
        else (best, maxLoad, { s with prevNrRunning := prev₁ }) := by
      rw [hload]
      rfl
    -- `prev_nr_running` is written for this CPU only, so the other loads are as before
    have hprev' : ∀ c ∈ cpus, prev₁ thisCpu c = s.prevNrRunning thisCpu c := by
      intro c hc
      rw [hprev₁, Function.update_self, Function.update_of_ne (ne_of_mem_of_not_mem hc hnot)]
      exact hprev c (List.mem_cons_of_mem _ hc)
    rw [List.foldl_cons, hround]
    by_cases hmore : s.load thisCpu idle cpu > maxLoad ∧ cpu ≠ thisCpu
    · rw [if_pos hmore]
      obtain ⟨best', maxLoad', prev', hfold, hbest⟩ :=
        ih hnodup prev₁ hprev' (some cpu) (s.load thisCpu idle cpu)
      exact ⟨best', maxLoad', prev', hfold, hbest.take hnot hmore.2 hmore.1⟩
    · rw [if_neg hmore]
      obtain ⟨best', maxLoad', prev', hfold, hbest⟩ := ih hnodup prev₁ hprev' best maxLoad
      exact ⟨best', maxLoad', prev', hfold,
        hbest.skip hnot fun hne => not_lt.mp fun hc => hmore ⟨hc, hne⟩⟩

/-- **The loop over all runqueues** finds the busiest one, if there is one. -/
theorem findBusiest_spec (hcpus : s.cpuLogicalMap.Nodup) (thisCpu : ℕ) (idle : Bool) :
    ∃ best maxLoad prev, s.findBusiest thisCpu idle =
        (best, maxLoad, { s with prevNrRunning := prev }) ∧
      (best = none ∧ (∀ busiest, ¬Busiest thisCpu idle s busiest) ∨
        ∃ busiest, best = some busiest ∧ maxLoad = s.load thisCpu idle busiest ∧
          Busiest thisCpu idle s busiest) := by
  obtain ⟨best, maxLoad, prev, hfold, hbest⟩ := foldl_considerRq thisCpu idle
    s.cpuLogicalMap hcpus s.prevNrRunning (fun _ _ => rfl) none 1
  refine ⟨best, maxLoad, prev, hfold, ?_⟩
  cases hbest with
  | kept hnone =>
    exact .inl ⟨rfl, fun busiest h => absurd h.two (not_lt.mpr (hnone busiest h.mem h.ne))⟩
  | found busiest hmem hne hmore hall hfirst =>
    exact .inr ⟨busiest, rfl, rfl, hmem, hne, hmore, hall, hfirst⟩

/-! ## The call -/

/-- The lengths recorded do not matter to the search. -/
theorem Pulled.of_prev {prev : ℕ → ℕ → ℤ}
    (h : Pulled busiest thisCpu ps { s with prevNrRunning := prev } s') :
    Pulled busiest thisCpu ps s s' :=
  ⟨h.cpus, h.flags, h.nodup, h.reach, h.arrives, h.others, h.sched, h.can, h.ptrs_busiest, h.ptrs_this,
    fun cpu hcpu => h.inv cpu (hcpu.sameQueues (.prevNrRunning prev))⟩

/-- The length of this runqueue that `load_balance` compares: the greater one. -/
def ownLoad (thisCpu : ℕ) (idle : Bool) (s : Smp) : ℤ :=
  if idle ∨ (s.runqueues thisCpu).nrRunning > s.prevNrRunning thisCpu thisCpu then
    (s.runqueues thisCpu).nrRunning
  else s.prevNrRunning thisCpu thisCpu

theorem le_ownLoad (thisCpu : ℕ) (idle : Bool) (s : Smp) :
    (s.runqueues thisCpu).nrRunning ≤ s.ownLoad thisCpu idle := by
  unfold ownLoad
  split
  · exact le_refl _
  · next h =>
    rw [not_or, not_lt] at h
    exact h.2

/-- Half of the difference between the two loads. -/
def imbalanceOf (thisCpu : ℕ) (idle : Bool) (s : Smp) (busiest : ℕ) : ℤ :=
  (s.load thisCpu idle busiest - s.ownLoad thisCpu idle).tdiv 2

/-- The runqueue of the CPU `busiest` is long enough to be relieved: it is the busiest one, the
difference is a quarter of its load at least (unless this CPU is idle), and the runqueue is still
that long. -/
structure Overloaded (thisCpu : ℕ) (idle : Bool) (s : Smp) (busiest : ℕ) : Prop
    extends Busiest thisCpu idle s busiest where
  quarter : idle = false →
    (s.load thisCpu idle busiest + 3).tdiv 4 ≤ s.imbalanceOf thisCpu idle busiest
  long : s.ownLoad thisCpu idle + 1 < (s.runqueues busiest).nrRunning

namespace Overloaded

/-- Something may be pulled, and twice as much is at most the difference of the lengths. -/
theorem limit_le (h : Overloaded thisCpu idle s busiest) :
    0 < limit idle (s.imbalanceOf thisCpu idle busiest) ∧
      2 * limit idle (s.imbalanceOf thisCpu idle busiest) ≤
        (s.runqueues busiest).nrRunning - s.ownLoad thisCpu idle := by
  have hle := load_le thisCpu idle s busiest
  have hmany := h.two
  have hlong := h.long
  cases idle with
  | true =>
    show (0 : ℤ) < 1 ∧ 2 * (1 : ℤ) ≤ _
    omega
  | false =>
    show 0 < s.imbalanceOf thisCpu false busiest ∧ 2 * s.imbalanceOf thisCpu false busiest ≤ _
    have hquarter := h.quarter rfl
    rw [Int.tdiv_eq_ediv_of_nonneg (by omega)] at hquarter
    -- a quarter of a load above 1 is positive, so the difference is
    have hpos : 0 ≤ s.load thisCpu false busiest - s.ownLoad thisCpu false := by
      by_contra hneg
      have hnonneg : 0 ≤ (s.ownLoad thisCpu false - s.load thisCpu false busiest).tdiv 2 :=
        Int.tdiv_nonneg (by omega) (by decide)
      have himbalance : s.imbalanceOf thisCpu false busiest =
          -(s.ownLoad thisCpu false - s.load thisCpu false busiest).tdiv 2 := by
        rw [imbalanceOf, ← neg_sub, Int.neg_tdiv]
      omega
    rw [imbalanceOf, Int.tdiv_eq_ediv_of_nonneg hpos] at hquarter ⊢
    omega

end Overloaded

/-- Four OTHER tasks on CPU 1, as many as at the last call, and none on CPU 0. -/
def fourWait : Smp :=
  let task (pid : ℤ) : Task := { timeSlice := 15, pid := pid, cpu := 1, array := some .arrays0 }
  { ofList [task 2, task 3, task 4, task 5] fun cpu => 2 * cpu with
    prevNrRunning := fun _ cpu => 4 * cpu }

end Smp
end ShortSched
