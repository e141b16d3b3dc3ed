import Mathlib.Data.Prod.Lex
import ShortSched.OfTasks

/-!
# The order in which `schedule` runs tasks

`schedule` looks through the arrays in a fixed order, takes the best queue of the first array
that has a task, and the first task of that queue. As an order on tasks this is lexicographic:
the rank of the array, then `prio`, then the place in the queue. The idle task, which is in no
array, comes last.
-/

namespace ShortSched

open General

/-- Where `schedule` comes to an array: `rt_short`, `active`, `expired`, `overdue`. -/
def arrayRank (q : RqPtrs) : Option PrioArrayPtr → ℕ
  | none => 4
  | some array =>
    if array = q.rtShort then 0
    else if array = q.active then 1
    else if array = q.expired then 2
    else 3

section arrayRank

variable (q : RqPtrs)

@[simp] theorem arrayRank_rtShort : arrayRank q (some q.rtShort) = 0 := if_pos rfl

@[simp] theorem arrayRank_active : arrayRank q (some q.active) = 1 := by
  obtain ⟨-, -, -, hra, -⟩ := Sys.ptrs_ne q
  rw [arrayRank, if_neg hra.symm, if_pos rfl]

@[simp] theorem arrayRank_expired : arrayRank q (some q.expired) = 2 := by
  obtain ⟨hae, hre, -⟩ := Sys.ptrs_ne q
  rw [arrayRank, if_neg hre.symm, if_neg hae.symm, if_pos rfl]

@[simp] theorem arrayRank_overdue : arrayRank q (some q.overdue) = 3 := by
  obtain ⟨-, -, hoe, -, hoa, hro⟩ := Sys.ptrs_ne q
  rw [arrayRank, if_neg hro.symm, if_neg hoa, if_neg hoe]

@[simp] theorem arrayRank_none : arrayRank q none = 4 := rfl

/-- Every array is one of the four. -/
theorem RqPtrs.array_cases (array : PrioArrayPtr) :
    array = q.active ∨ array = q.expired ∨ array = q.rtShort ∨ array = q.overdue := by
  have hmem := Finset.mem_univ array
  rw [q.univ_eq] at hmem
  simpa using hmem

/-- The arrays keep their order as long as the pointers stay. -/
theorem SamePtrs.arrayRank_eq {q q' : RqPtrs} (h : SamePtrs q q') :
    arrayRank q' = arrayRank q := by
  ext array
  cases array <;> simp only [arrayRank, h.rtShort, h.active, h.expired]

end arrayRank

namespace Sys

variable {s s' s₁ : Sys} {t u next : TaskId} {array : PrioArrayPtr}

/-- The array and the priority of a task, in the order of `schedule`. -/
def schedKey (s : Sys) (t : TaskId) : ℕ ×ₗ ℤ :=
  toLex (arrayRank s.rq.toRqPtrs (s.task t).array, (s.task t).prio)

/-- How many tasks are in front of a task in its queue. -/
def placeInQueue (s : Sys) (t : TaskId) : ℕ :=
  match (s.task t).array with
  | none => 0
  | some array => (s.queue array (s.task t).prio).idxOf t

/-- Array, priority and place in the queue. -/
def schedRank (s : Sys) (t : TaskId) : (ℕ ×ₗ ℤ) ×ₗ ℕ := toLex (s.schedKey t, s.placeInQueue t)

/-- A task that no queued task precedes. -/
structure Best (s : Sys) (t : TaskId) : Prop where
  queued : (s.task t).array ≠ none
  least : ∀ u, (s.task u).array ≠ none → s.schedRank t ≤ s.schedRank u

/-- An array without tasks. -/
def ArrayEmpty (s : Sys) (array : PrioArrayPtr) : Prop := ∀ prio, s.queue array prio = []

/-! ## The pick is the best task -/

/-- `nr_active` tells whether an array is empty. -/
theorem Layout.arrayEmpty_iff (h : s.Layout) :
    s.ArrayEmpty array ↔ s.nrActives array = 0 := by
  rw [h.nrActive, count_eq_zero_iff]
  constructor
  · intro hempty l hl
    obtain ⟨rfl, -⟩ := mem_levels.mp hl
    exact hempty l.2
  · intro hempty prio
    rw [List.eq_nil_iff_forall_not_mem]
    intro t ht
    obtain ⟨harray, hprio⟩ := h.mem_queue.mp ht
    have hrange := h.range t (by rw [harray]; exact Option.some_ne_none _)
    rw [hprio] at hrange
    -- a queue above or below the valid priorities is empty as well
    have hnil : s.queues (array, prio) = [] := hempty _ (mem_levels.mpr ⟨rfl, hrange⟩)
    exact List.ne_nil_of_mem ht hnil

theorem Layout.array_ne (h : s.Layout) (hzero : s.nrActives array = 0) (u : TaskId) :
    (s.task u).array ≠ some array := by
  intro hu
  have hmem : u ∈ s.queue array (s.task u).prio := h.mem_queue.mpr ⟨hu, rfl⟩
  exact List.ne_nil_of_mem hmem (h.arrayEmpty_iff.mpr hzero _)

/-- The first task of an array is the best one if no task is in an array that comes before. -/
theorem FirstOf.best (hfirst : s.FirstOf array t)
    (hrank : ∀ u a, (s.task u).array = some a →
      arrayRank s.rq.toRqPtrs (some array) ≤ arrayRank s.rq.toRqPtrs (some a)) : s.Best t := by
  have hplace : s.placeInQueue t = 0 := by
    rw [placeInQueue, hfirst.queued]
    obtain ⟨ts, hts⟩ := List.head?_eq_some_iff.mp hfirst.head
    show (s.queue array (s.task t).prio).idxOf t = 0
    rw [hts, List.idxOf_cons_self]
  refine ⟨by rw [hfirst.queued]; exact Option.some_ne_none _, fun u hu => ?_⟩
  obtain ⟨a, ha⟩ := Option.ne_none_iff_exists'.mp hu
  rw [schedRank, schedRank, Prod.Lex.toLex_le_toLex, schedKey, schedKey, hfirst.queued, ha]
  rcases (hrank u a ha).lt_or_eq with hlt | heq
  · exact .inl (Prod.Lex.toLex_lt_toLex.mpr (.inl hlt))
  · -- in the same array the first task has the least priority
    have hsame : a = array := by
      rcases s.rq.toRqPtrs.array_cases a with rfl | rfl | rfl | rfl <;>
        rcases s.rq.toRqPtrs.array_cases array with rfl | rfl | rfl | rfl <;> simp_all
    have hprio := hfirst.least u (by rw [ha, hsame])
    rcases hprio.lt_or_eq with hlt | hprio
    · exact .inl (Prod.Lex.toLex_lt_toLex.mpr (.inr ⟨heq, hlt⟩))
    · refine .inr ⟨by rw [hsame, hprio], ?_⟩
      rw [hplace]
      exact Nat.zero_le _

/-- `schedule` exchanges `active` and `expired` when only `expired` is left to look at. -/
def Exchanges (s : Sys) : Prop :=
  s.ArrayEmpty s.rq.rtShort ∧ s.ArrayEmpty s.rq.active ∧ ¬s.ArrayEmpty s.rq.expired

/-- What `pick_next_task` gives: the idle task if there is no other, else a best task. -/
structure PicksBest (s : Sys) (next : TaskId) (s' : Sys) : Prop where
  idle_iff : next = s.rq.idle ↔ ∀ array, s.ArrayEmpty array
  best : next ≠ s.rq.idle → s.Best next
  exchanged : s.Exchanges → s'.rq.active = s.rq.expired ∧ s'.rq.expired = s.rq.active
  unchanged : ¬s.Exchanges → s'.rq.active = s.rq.active ∧ s'.rq.expired = s.rq.expired

theorem FirstOf.not_empty (h : s.FirstOf array t) : ¬s.ArrayEmpty array := by
  intro hempty
  have hhead := h.head
  rw [hempty] at hhead
  cases hhead

/-- A pick that is not the idle task. -/
theorem FirstOf.picksBest (hidle : (s.task s.rq.idle).array = none) (h : s.FirstOf array next)
    (hrank : ∀ u a, (s.task u).array = some a →
      arrayRank s.rq.toRqPtrs (some array) ≤ arrayRank s.rq.toRqPtrs (some a))
    (hexchanged : s.Exchanges → s'.rq.active = s.rq.expired ∧ s'.rq.expired = s.rq.active)
    (hunchanged : ¬s.Exchanges → s'.rq.active = s.rq.active ∧ s'.rq.expired = s.rq.expired) :
    s.PicksBest next s' where
  idle_iff := by
    refine ⟨?_, fun hempty => absurd (hempty array) h.not_empty⟩
    rintro rfl
    have hqueued := h.queued
    rw [hidle] at hqueued
    cases hqueued
  best _ := h.best hrank
  exchanged := hexchanged
  unchanged := hunchanged

/-- The first array that has a task has the best one at its lowest level. -/
theorem PickCase.picksBest (hlayout : s.Layout) (hidle : (s.task s.rq.idle).array = none)
    (h : s.PickCase (next, s')) : s.PicksBest next s' := by
  have hcases := s.rq.toRqPtrs.array_cases
  -- a task is in no array that has been found empty
  have hne : ∀ {array}, s.nrActives array = 0 → ∀ {u a}, (s.task u).array = some a → a ≠ array := by
    intro array hzero u a hu ha
    exact hlayout.array_ne hzero u (ha ▸ hu)
  have hsame : s.rq.active = s.rq.active ∧ s.rq.expired = s.rq.expired := ⟨rfl, rfl⟩
  cases h with
  | idle hzero =>
    have hempty : ∀ array, s.ArrayEmpty array := fun array => hlayout.arrayEmpty_iff.mpr (hzero array)
    refine ⟨⟨fun _ => hempty, fun _ => rfl⟩, fun hc => absurd rfl hc, ?_, fun _ => hsame⟩
    intro hex
    exact absurd (hempty _) hex.2.2
  | rtShort hfirst =>
    refine hfirst.picksBest hidle (fun u a hu => ?_) (fun hex => ?_) fun _ => hsame
    · rw [arrayRank_rtShort]
      exact Nat.zero_le _
    · exact absurd hex.1 hfirst.not_empty
  | active hrt hfirst =>
    refine hfirst.picksBest hidle (fun u a hu => ?_) (fun hex => ?_) fun _ => hsame
    · have hrt := hne hrt hu
      rcases hcases a with rfl | rfl | rfl | rfl <;> simp_all
    · exact absurd hex.2.1 hfirst.not_empty
  | expired hrt hactive hfirst =>
    refine hfirst.picksBest hidle (fun u a hu => ?_) (fun _ => ⟨rfl, rfl⟩) fun hex => ?_
    · have hrt := hne hrt hu
      have hactive := hne hactive hu
      rcases hcases a with rfl | rfl | rfl | rfl <;> simp_all
    · refine absurd ⟨?_, ?_, hfirst.not_empty⟩ hex
      · exact hlayout.arrayEmpty_iff.mpr hrt
      · exact hlayout.arrayEmpty_iff.mpr hactive
  | overdue hrt hactive hexpired hfirst =>
    refine hfirst.picksBest hidle (fun u a hu => ?_) (fun hex => ?_) fun _ => hsame
    · have hrt := hne hrt hu
      have hactive := hne hactive hu
      have hexpired := hne hexpired hu
      rcases hcases a with rfl | rfl | rfl | rfl <;> simp_all
    · exact absurd (hlayout.arrayEmpty_iff.mpr hexpired) hex.2.2

/-! ## The passes of `schedule` -/

/-- A pass of `schedule` that takes the processor from `current` to `next`. `s₁` is the state
in which `current` has been deactivated if it is going to sleep. -/
structure PassTo (s : Sys) (next : TaskId) (s' s₁ : Sys) : Prop where
  pass : s.schedulePass = some s'
  deactivate : s.passBegin.deactivatePrev s.rq.curr = some s₁
  picks : s₁.PicksBest next s'
  curr : s'.rq.curr = next
  /-- but for a sleeping `current` no task leaves its place -/
  queue : ∀ array prio, s'.queue array prio =
    if s.current.GoesToSleep then (s.queue array prio).filter (· ≠ s.rq.curr)
    else s.queue array prio
  agree : s'.RqAgree

/-- **A pass of `schedule`**, with what it leaves of the last task and what it picks. -/
theorem RqAgree.passTo (h : s.RqAgree)
    (hprev : s.rq.curr = s.rq.idle → s.current.state = .running) :
    ∃ next s' s₁, s.PassTo next s' s₁ := by
  obtain ⟨s₁, s', next, s₂, hpass, hfrom, hagree⟩ :=
    h.schedulePass fun hc hsleep => hsleep.1 (hprev hc)
  have hpicks := hfrom.pick.picksBest hfrom.layout hfrom.idle_array
  have hsame : s'.rq.active = s₂.rq.active ∧ s'.rq.expired = s₂.rq.expired := by
    rw [hfrom.switch, switchTasks]
    split <;> exact ⟨rfl, rfl⟩
  refine ⟨next, s', s₁, hpass, hfrom.prev, ?_, hfrom.curr, fun array prio => ?_, hagree⟩
  · refine ⟨hpicks.idle_iff, hpicks.best, ?_, ?_⟩
    · rw [hsame.1, hsame.2]
      exact hpicks.exchanged
    · rw [hsame.1, hsame.2]
      exact hpicks.unchanged
  · have hqueues := congrFun (schedulePass_frame hpass).queues (array, prio)
    show s'.queues (array, prio) = _
    rw [hqueues]
    split <;> rfl

/-- `schedule` is a sequence of such passes. -/
theorem RqAgree.passes {n : ℕ} (h : s.RqAgree) (hidle : s.IdleRuns)
    (hloop : s.scheduleLoop n = some s') :
    ∃ nexts, nexts ≠ [] ∧ Run (fun s next s' => ∃ s₁, s.PassTo next s' s₁) s nexts s' := by
  induction n generalizing s with
  | zero => cases hloop
  | succ n ih =>
    obtain ⟨next, s₂, s₁, hpass⟩ := h.passTo fun hc => by rw [current, hc]; exact hidle
    rw [scheduleLoop, hpass.pass] at hloop
    by_cases hresched : s₂.current.needResched = 0
    · obtain rfl : s₂ = s' := by simpa [hresched] using hloop
      exact ⟨[next], List.cons_ne_nil _ _, Run.single ⟨s₁, hpass⟩⟩
    · -- `goto need_resched`
      have hrest : s₂.scheduleLoop n = some s' := by simpa [hresched] using hloop
      obtain ⟨nexts, -, hrun⟩ :=
        ih hpass.agree ((schedulePass_frame hpass.pass).idleRuns hidle) hrest
      exact ⟨next :: nexts, List.cons_ne_nil _ _, Run.cons ⟨s₁, hpass⟩ hrun⟩

/-- Over a whole call no queue is reordered, and no task enters one. -/
theorem queue_sublist_of_passes {nexts : List TaskId}
    (hrun : Run (fun s next s' => ∃ s₁, s.PassTo next s' s₁) s nexts s') (array : PrioArrayPtr)
    (prio : ℤ) : (s'.queue array prio).Sublist (s.queue array prio) := by
  induction hrun with
  | nil => exact List.Sublist.refl _
  | cons step _ ih =>
    obtain ⟨s₁, hpass⟩ := step
    apply ih.trans
    rw [hpass.queue]
    split
    · exact List.filter_sublist
    · exact List.Sublist.refl _

/-- **The pick of `schedule` is the best runnable task**: every pass from a runqueue that agrees
with itself picks one, and a call of `schedule` returns after one or more such passes. -/
theorem schedule_picks_best (h : s.RqAgree)
    (hprev : s.rq.curr = s.rq.idle → s.current.state = .running) :
    (∃ next s' s₁, s.PassTo next s' s₁) ∧
    (s.IdleRuns → ∃ s' nexts, s.schedule = some s' ∧ s'.RqAgree ∧ nexts ≠ [] ∧
      Run (fun s next s' => ∃ s₁, s.PassTo next s' s₁) s nexts s' ∧
      ∀ array prio, (s'.queue array prio).Sublist (s.queue array prio)) := by
  refine ⟨h.passTo hprev, fun hidle => ?_⟩
  obtain ⟨s', hs', hagree⟩ := schedule_returns h hidle
  obtain ⟨nexts, hne, hrun⟩ := h.passes hidle hs'
  exact ⟨s', nexts, hs', hagree, hne, hrun, queue_sublist_of_passes hrun⟩

/-- `current` goes to sleep, so that `expired` is all that is left. -/
theorem schedule_picks_best_expired :
    let ts : List Task :=
      [{ timeSlice := 15, pid := 1, array := some .arrays0, state := .interruptible },
        { timeSlice := 15, pid := 2, array := some .arrays1 }]
    ∃ next s' s₁, (ofList ts 1).PassTo next s' s₁ ∧ next = 2 ∧ s'.rq.active = .arrays1 := by
  intro ts
  have hinv : (ofList ts 1).RqInv := rqInv_ofList (by decide) (by decide)
  obtain ⟨next, s', s₁, hpass⟩ := (schedule_picks_best hinv.toRqAgree (by decide)).1
  have hresult : (ofList ts 1).schedulePass.map (fun s => (s.rq.curr, s.rq.active)) =
      some (2, .arrays1) := by decide +kernel
  rw [hpass.pass, Option.map_some, Option.some.injEq, Prod.mk.injEq, hpass.curr] at hresult
  exact ⟨next, s', s₁, hpass, hresult⟩

end Sys
end ShortSched
