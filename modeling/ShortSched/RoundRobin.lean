import ShortSched.RunqueueRuns
import ShortSched.SchedulingOrder

/-!
# Yields among SHORT tasks

`sys_sched_yield` puts a task that is not real-time right behind the first of the tasks that
wait in its queue. Two SHORT tasks of one priority take turns; of three or more the third never
runs while the first two do nothing but yield.
-/

namespace ShortSched
namespace Sys

open General

variable {s s' : Sys} {prio : ℤ} {l : List TaskId} {a b t : TaskId}

/-! ## The ring -/

/-- `rt_short` holds the SHORT tasks `l`, all of them awake and of one priority, and no other
task. -/
structure ShortRing (prio : ℤ) (l : List TaskId) (s : Sys) : Prop where
  queue : ∀ k, s.queue s.rq.rtShort k = if k = prio then l else []
  short : ∀ t ∈ l, (s.task t).ShortTask
  running : ∀ t ∈ l, (s.task t).state = .running

namespace ShortRing

theorem queue_self (h : ShortRing prio l s) : s.queue s.rq.rtShort prio = l :=
  (h.queue prio).trans (if_pos rfl)

/-- The tasks of the ring are queued in `rt_short` at its priority. -/
theorem queued (h : ShortRing prio l s) (hlayout : s.Layout) (ht : t ∈ l) :
    (s.task t).array = some s.rq.rtShort ∧ (s.task t).prio = prio := by
  rw [← h.queue_self] at ht
  exact hlayout.mem_queue.mp ht

theorem nodup (h : ShortRing prio l s) (hlayout : s.Layout) : l.Nodup := by
  have hnodup : (s.queue s.rq.rtShort prio).Nodup := hlayout.placed.nodup (s.rq.rtShort, prio)
  rwa [h.queue_self] at hnodup

theorem awake (h : ShortRing prio l s) (hcurr : s.rq.curr ∈ l) : ¬s.current.GoesToSleep :=
  fun hsleep => hsleep.1 (h.running _ hcurr)

/-! ## `schedule` -/

/-- A pass of `schedule` changes nothing about the ring. -/
theorem pass (h : ShortRing prio l s) (hcurr : s.rq.curr ∈ l) (hpass : s.schedulePass = some s') :
    ShortRing prio l s' := by
  have hframe := schedulePass_frame hpass
  refine ⟨fun k => ?_, fun t ht => ?_, fun t ht => ?_⟩
  · have hqueues : s'.queues (s.rq.rtShort, k) = s.queues (s.rq.rtShort, k) := by
      rw [hframe.queues, if_neg (h.awake hcurr)]
    rw [hframe.ptrs.rtShort]
    exact hqueues.trans (h.queue k)
  · rw [hframe.sched]
    exact h.short t ht
  · rcases hframe.state t with hstate | hstate
    · rw [hstate, h.running t ht]
    · exact hstate

/-- A pass runs the first task of the ring. -/
theorem pass_curr (h : ShortRing prio (b :: l) s) (hinv : s.RqInv) (hcurr : s.rq.curr ∈ b :: l)
    (hpass : s.schedulePass = some s') : s'.rq.curr = b := by
  obtain ⟨s₁, s₂, next, s₃, hpass', hfrom, -⟩ :=
    hinv.toRqAgree.schedulePass fun hc => hinv.idle_runs.not_goesToSleep hc
  obtain rfl : s' = s₂ := Option.some.inj (hpass.symm.trans hpass')
  have hsleep : ¬s.current.GoesToSleep := h.awake hcurr
  have hptr : s₁.rq.rtShort = s.rq.rtShort := hfrom.frame.ptrs.rtShort
  have hqueue : ∀ k, s₁.queue s₁.rq.rtShort k = if k = prio then b :: l else [] := by
    intro k
    have hqueues : s₁.queues (s.rq.rtShort, k) = s.queues (s.rq.rtShort, k) := by
      rw [hfrom.frame.queues, if_neg hsleep]
    rw [hptr]
    exact hqueues.trans (h.queue k)
  -- `rt_short` is not empty, so that its first task is picked
  have hactive : s₁.nrActives s₁.rq.rtShort ≠ 0 := by
    intro hzero
    have hempty := hfrom.layout.arrayEmpty_iff.mpr hzero prio
    rw [hqueue, if_pos rfl] at hempty
    cases hempty
  have hpick := hfrom.pick
  rw [hfrom.curr]
  cases hpick with
  | idle hzero => exact absurd (hzero _) hactive
  | active hzero => exact absurd hzero hactive
  | expired hzero => exact absurd hzero hactive
  | overdue hzero => exact absurd hzero hactive
  | rtShort hfirst =>
    have hhead := hfirst.head
    rw [hqueue] at hhead
    split at hhead
    · exact (Option.some.inj hhead).symm
    · cases hhead

/-- **`schedule`** leaves the ring alone and runs its first task. -/
theorem scheduleLoop {n : ℕ} (h : ShortRing prio (b :: l) s) (hinv : s.RqInv)
    (hcurr : s.rq.curr ∈ b :: l) (hloop : s.scheduleLoop n = some s') :
    ShortRing prio (b :: l) s' ∧ s'.rq.curr = b ∧ s'.forking = s.forking := by
  induction n generalizing s with
  | zero => cases hloop
  | succ n ih =>
    simp only [Sys.scheduleLoop, Option.bind_eq_bind, Option.bind_eq_some_iff] at hloop
    obtain ⟨s₁, hpass, hloop⟩ := hloop
    have hring₁ := h.pass hcurr hpass
    have hcurr₁ := h.pass_curr hinv hcurr hpass
    have hforking₁ := (schedulePass_frame hpass).forking
    split at hloop
    · -- `goto need_resched`
      have hmem : s₁.rq.curr ∈ b :: l := by
        rw [hcurr₁]
        exact List.mem_cons_self
      rw [← hforking₁]
      exact ih hring₁ (hinv.schedulePass hpass) hmem hloop
    · obtain rfl := Option.some.inj hloop
      exact ⟨hring₁, hcurr₁, hforking₁⟩

/-! ## `sys_sched_yield` -/

/-- A yield of the first task of the ring exchanges it with the second. -/
theorem yieldRequeue (h : ShortRing prio (a :: b :: l) s) (hinv : s.RqInv) (hcurr : s.rq.curr = a) :
    ∃ s₁, s.yieldRequeue = some s₁ ∧ ShortRing prio (b :: a :: l) s₁ ∧ s₁.rq.curr = a ∧
      s₁.forking = s.forking := by
  have hmem : s.rq.curr ∈ a :: b :: l := by
    rw [hcurr]
    exact List.mem_cons_self
  obtain ⟨harray, hprio⟩ := h.queued hinv.layout hmem
  have hne : s.rq.curr ≠ s.rq.idle := hinv.ne_idle harray
  have hrt : ¬s.current.RtTask :=
    (hinv.tasks _ hne).ok.not_rtTask (.inr (h.short _ hmem).1)
  obtain ⟨hfirst, -⟩ := List.nodup_cons.mp (h.nodup hinv.layout)
  -- what is left of the queue
  have hrest : remove s.rq.curr s.queues (s.rq.rtShort, prio) = b :: l := by
    have hqueue : s.queues (s.rq.rtShort, prio) = a :: b :: l := h.queue_self
    rw [remove, hqueue, hcurr, List.filter_cons_of_neg (by simp), List.filter_eq_self]
    intro t ht
    have hta : t ≠ a := fun hc => hfirst (hc ▸ ht)
    simp [hta]
  have hyield : s.yieldRequeue =
      some ((s.listDel s.rq.curr).setQueue s.rq.rtShort prio (b :: a :: l)) := by
    have hqueue : (s.listDel s.rq.curr).queue s.rq.rtShort prio = b :: l := hrest
    unfold Sys.yieldRequeue
    simp only [Option.bind_eq_bind]
    rw [harray, Option.bind_some, if_neg hrt, yieldTail, hprio]
    dsimp only
    rw [hqueue, if_pos (List.cons_ne_nil b l), listAddNext, hqueue, hcurr]
    rfl
  refine ⟨_, hyield, ⟨fun k => ?_, fun t ht => ?_, fun t ht => ?_⟩, hcurr, rfl⟩
  · refine (congrFun (queues_setQueue (s.listDel s.rq.curr) s.rq.rtShort prio (b :: a :: l))
      (s.rq.rtShort, k)).trans ?_
    by_cases hk : k = prio
    · rw [hk, Function.update_self, if_pos rfl]
    · have hempty : s.queues (s.rq.rtShort, k) = [] := (h.queue k).trans (if_neg hk)
      rw [Function.update_of_ne (fun hc => hk (congrArg Prod.snd hc)), if_neg hk, queues_listDel,
        remove, hempty, List.filter_nil]
  · exact h.short t ((List.Perm.swap a b l).mem_iff.mp ht)
  · exact h.running t ((List.Perm.swap a b l).mem_iff.mp ht)

end ShortRing

variable [Param]

/-- The first of the ring yields, and the second runs and is the first. -/
theorem ShortRing.yield (h : ShortRing prio (a :: b :: l) s) (hinv : s.RqInv)
    (hforking : s.forking = none) (hcurr : s.rq.curr = a) :
    ∃ s', Step s .sysSchedYield s' ∧ ShortRing prio (b :: a :: l) s' ∧ s'.RqInv ∧
      s'.forking = none ∧ s'.rq.curr = b := by
  have hmem : s.rq.curr ∈ a :: b :: l := by
    rw [hcurr]
    exact List.mem_cons_self
  have hne : s.rq.curr ≠ s.rq.idle := hinv.ne_idle (h.queued hinv.layout hmem).1
  obtain ⟨s₁, hyield, hring₁, hcurr₁, hforking₁⟩ := h.yieldRequeue hinv hcurr
  have hinv₁ := hinv.yieldRequeue hne hyield
  obtain ⟨s', hsched, -⟩ := schedule_returns hinv₁.toRqAgree hinv₁.idle_runs
  have hmem₁ : s₁.rq.curr ∈ b :: a :: l := by
    rw [hcurr₁]
    exact List.mem_cons_of_mem b List.mem_cons_self
  obtain ⟨hring', hcurr', hforking'⟩ := hring₁.scheduleLoop hinv₁ hmem₁ hsched
  refine ⟨s', ⟨⟨hforking, hne⟩, ?_⟩, hring', hinv₁.schedule hsched, ?_, hcurr'⟩
  · change s.sysSchedYield = some s'
    rw [Sys.sysSchedYield, hyield]
    exact hsched
  · rw [hforking', hforking₁, hforking]

/-! ## Runs of yields -/

/-- The task that makes call number `i` when every task that `schedule` runs yields at once. -/
def yielder (s : Sys) (i : ℕ) : Option TaskId :=
  (runOps (List.replicate i .sysSchedYield) s).map fun s' => s'.rq.curr

/-- In any `l.length` consecutive calls each task of `l` runs exactly once. -/
def RoundRobin (l : List TaskId) (s : Sys) : Prop :=
  ∀ i, ((List.range l.length).map fun j => s.yielder (i + j)).Perm (l.map some)

/-- The first two tasks of the ring take turns. -/
theorem ShortRing.yielder_eq (h : ShortRing prio (a :: b :: l) s) (hinv : s.RqInv)
    (hforking : s.forking = none) (hcurr : s.rq.curr = a) (i : ℕ) :
    s.yielder i = some (if i % 2 = 0 then a else b) := by
  induction i generalizing s a b with
  | zero => rw [yielder, List.replicate_zero, runOps, Option.map_some, hcurr]; rfl
  | succ i ih =>
    obtain ⟨s', ⟨henabled, hexec⟩, hring', hinv', hforking', hcurr'⟩ := h.yield hinv hforking hcurr
    have hnext : s.yielder (i + 1) = s'.yielder i := by
      rw [yielder, yielder, List.replicate_succ, runOps, if_pos henabled, hexec]
      rfl
    rw [hnext, ih hring' hinv' hforking' hcurr']
    congr 1
    split <;> split <;> first | rfl | omega

/-- **Yields among equal SHORT tasks** are a round robin of two tasks and of no more. -/
theorem yield_roundRobin_iff (hinv : s.RqInv) (hforking : s.forking = none)
    (hring : ShortRing prio l s) (hcurr : l.head? = some s.rq.curr) (hlen : 2 ≤ l.length) :
    s.RoundRobin l ↔ l.length = 2 := by
  obtain ⟨a, b, rest, rfl⟩ : ∃ a b rest, l = a :: b :: rest := by
    match l, hlen with
    | a :: b :: rest, _ => exact ⟨a, b, rest, rfl⟩
  have hfirst : s.rq.curr = a := (Option.some.inj hcurr).symm
  have hturns := hring.yielder_eq hinv hforking hfirst
  constructor
  · intro hround
    by_contra hmore
    -- the third task makes no call
    obtain ⟨c, rest', rfl⟩ : ∃ c rest', rest = c :: rest' := by
      cases rest with
      | nil => exact absurd rfl hmore
      | cons c rest' => exact ⟨c, rest', rfl⟩
    have hmem : some c ∈ (a :: b :: c :: rest').map some := by simp
    rw [← (hround 0).mem_iff, List.mem_map] at hmem
    obtain ⟨j, -, hj⟩ := hmem
    rw [hturns] at hj
    have hnodup := hring.nodup hinv.layout
    simp only [List.nodup_cons, List.mem_cons, not_or] at hnodup
    split at hj
    · exact hnodup.1.2.1 (Option.some.inj hj)
    · exact hnodup.2.1.1 (Option.some.inj hj)
  · intro htwo i
    have hrest : rest = [] := by simpa using htwo
    subst hrest
    change [s.yielder (i + 0), s.yielder (i + 1)].Perm [some a, some b]
    rw [hturns, hturns]
    rcases Nat.mod_two_eq_zero_or_one i with hi | hi
    · have hnext : ¬(i + 1) % 2 = 0 := by omega
      rw [add_zero, if_pos hi, if_neg hnext]
    · have hthis : ¬i % 2 = 0 := by omega
      have hnext : (i + 1) % 2 = 0 := by omega
      rw [add_zero, if_neg hthis, if_pos hnext]
      exact List.Perm.swap _ _ _

omit [Param]

/-- SHORT tasks of one priority, the first of which runs. -/
def shortTasks (n : ℕ) : Sys :=
  ofList ((List.range n).map fun i =>
    { timeSlice := 100, policy := .short, requestedTime := 100, iWasShort := 1, pid := i + 1,
      array := some .shortArrays0 }) 1

theorem shortRing_shortTasks {n : ℕ} (h : ∀ t ∈ (shortTasks n).tasklist,
    ((shortTasks n).task t).level = some (.shortArrays0, 120) ∧
      ((shortTasks n).task t).ShortTask ∧ ((shortTasks n).task t).state = .running) :
    ShortRing 120 (shortTasks n).tasklist (shortTasks n) where
  queue k := by
    change (shortTasks n).tasklist.filter _ = _
    by_cases hk : k = 120
    · rw [if_pos hk, List.filter_eq_self]
      intro t ht
      rw [decide_eq_true_eq, hk]
      exact (h t ht).1
    · rw [if_neg hk, List.filter_eq_nil_iff]
      intro t ht
      rw [decide_eq_true_eq]
      intro hlevel
      have hsame := Option.some.inj ((h t ht).1.symm.trans hlevel)
      exact hk (congrArg Prod.snd hsame).symm
  short t ht := (h t ht).2.1
  running t ht := (h t ht).2.2

/-- Of three SHORT tasks the third never runs. -/
theorem yield_not_roundRobin : (shortTasks 3).RqInv ∧ (shortTasks 3).forking = none ∧
    ShortRing 120 [1, 2, 3] (shortTasks 3) ∧ (shortTasks 3).rq.curr = 1 ∧
    (List.range 3).map (@yielder hz100 (shortTasks 3)) = [some 1, some 2, some 1] ∧
    ¬@RoundRobin hz100 [1, 2, 3] (shortTasks 3) := by
  have hcalls : (List.range 3).map (@yielder hz100 (shortTasks 3)) = [some 1, some 2, some 1] := by
    decide +kernel
  refine ⟨rqInv_ofList (by decide) (by decide), rfl, shortRing_shortTasks (n := 3) (by decide), rfl,
    hcalls, fun hround => ?_⟩
  have hfirst : [some 1, some 2, some 1].Perm ([1, 2, 3].map some) := by
    rw [← hcalls]
    simpa using hround 0
  exact absurd hfirst (by decide)

/-- Two SHORT tasks take turns. -/
theorem yield_roundRobin_iff_two : @RoundRobin hz100 [1, 2] (shortTasks 2) :=
  (@yield_roundRobin_iff (shortTasks 2) 120 [1, 2] hz100
    (rqInv_ofList (by decide) (by decide)) rfl (shortRing_shortTasks (n := 2) (by decide)) rfl
    (by decide)).mpr rfl

end Sys
end ShortSched
