import ShortSched.Links
import ShortSched.TimeSteps

/-!
# Where SHORT tasks are queued when they run

A tick is not charged to a task in the expired array. No SHORT task runs there, whatever the
`justGotForked` flags say, as long as `set_user_nice` is left out: that call alone queues the
tasks it pulls along in the array of another task.
-/

namespace ShortSched

open General Sys

/-- A task that is linked in a queue says that it is in some array. -/
def Sys.Linked (s : Sys) : Prop := ∀ t array, array ∈ arraysOf t s.queues → (s.task t).array ≠ none

/-- What the queues and the field `array` say about a SHORT task. -/
structure ShortLinks (t : TaskId) (s : Sys) : Prop where
  entries : ∀ array, (s.task t).ShortTask → array ∈ arraysOf t s.queues →
    (s.task t).array = some array ∨ (s.task t).array = some s.rq.rtShort
  current : s.rq.curr = t → t ≠ s.rq.idle → (s.task t).ShortTask →
    (s.task t).array ≠ some s.rq.expired

variable {s s' : Sys} {op : Op} {t : TaskId}

theorem rtShort_ne_expired (q : RqPtrs) : q.rtShort ≠ q.expired := (ptrs_ne q).2.1

/-- The tasks of a consistent runqueue are linked where they say. -/
theorem Sys.RqInv.linked (h : s.RqInv) : s.Linked := by
  rintro t array ⟨prio, ht⟩
  rw [(h.layout.mem_queue.mp ht).1]
  exact Option.some_ne_none array

/-- A task that is asleep is linked nowhere, and `rt_short` is not the expired array. -/
theorem ShortLinks.of_array (h : s.Linked)
    (harray : (s.task t).array = none ∨ (s.task t).array = some s.rq.rtShort) :
    ShortLinks t s where
  entries array _ hmem := .inr (harray.resolve_left (h t array hmem))
  current _ _ _ hexpired := by
    rcases harray with hnone | hrtShort
    · exact absurd (hnone.symm.trans hexpired) (Option.some_ne_none _).symm
    · exact rtShort_ne_expired s.rq.toRqPtrs (Option.some.inj (hrtShort.symm.trans hexpired))

/-- What every pass brings about holds after the last one. -/
theorem Sys.scheduleLoop_last {P : Sys → Prop}
    (hpass : ∀ s s' : Sys, s.schedulePass = some s' → P s') {n : ℕ}
    (h : s.scheduleLoop n = some s') : P s' := by
  induction n generalizing s with
  | zero => cases h
  | succ n ih =>
    simp only [scheduleLoop, Option.bind_eq_bind, Option.bind_eq_some_iff] at h
    obtain ⟨s₁, hs₁, h⟩ := h
    split at h
    · exact ih h
    · obtain rfl := Option.some.inj h
      exact hpass s s₁ hs₁

/-- `schedule` runs the idle task or a task that is linked in another array than `expired`. -/
theorem Sys.schedule_curr (h : s.schedule = some s') : s'.rq.curr = s'.rq.idle ∨
    ∃ array, array ∈ arraysOf s'.rq.curr s'.queues ∧ array ≠ s'.rq.expired := by
  refine scheduleLoop_last (P := fun s => s.rq.curr = s.rq.idle ∨
    ∃ array, array ∈ arraysOf s.rq.curr s.queues ∧ array ≠ s.rq.expired) ?_ h
  intro s₁ s₂ hs₂
  rcases (schedulePass_frame hs₂).curr with hidle | ⟨array, prio, hmem, hne⟩
  · exact .inl hidle
  · exact .inr ⟨array, ⟨prio, hmem⟩, hne⟩

variable [Param]

/-- A task that `setscheduler` makes SHORT goes to `rt_short` if it is queued. -/
theorem Sys.setscheduler_short {pid policy : ℤ} {param : UserParam} {r : ℤ}
    (hcall : s.setscheduler pid policy param = some (r, s')) (hnot : ¬(s.task t).ShortTask)
    (hshort : (s'.task t).ShortTask) :
    (s'.task t).array = none ∨ (s'.task t).array = some s.rq.rtShort := by
  cases SetschedCase.of_eq_some hcall with
  | refused _ hsame =>
    rw [hsame.sameTasks.sched] at hshort
    exact absurd hshort hnot
  | @adjusted p lp =>
    rw [(SameTasks.setTskNeedResched _ _).sched, modify_task] at hshort
    by_cases ht : t = p
    · subst ht
      rw [Function.update_self] at hshort
      exact absurd hshort hnot
    · rw [Function.update_of_ne ht] at hshort
      exact absurd hshort hnot
  | @madeShort p lp =>
    rw [(SameTasks.setTskNeedResched _ _).sched] at hshort
    rw [(SameTasks.setTskNeedResched _ _).array]
    by_cases ht : t = p
    swap
    · rw [requeued_sched fun _ => rfl, if_neg ht] at hshort
      exact absurd hshort hnot
    subst ht
    have htime := SameTime.requeued (f := Task.makeShort lp) (fun _ => rfl) t s
    cases harray : (s.task t).array with
    | none =>
      left
      rw [requeued, harray, modify_proj (fun t => t.array) rfl, harray]
    | some array =>
      right
      rw [requeued_task (fun _ => rfl) harray, if_pos (.inl rfl)]
      exact congrArg some (if_pos (.inl (htime.shortTask_iff.mp hshort)))
  | @changed p lp policy' s₁ _ _ hnew _ _ hsame =>
    by_cases ht : t = p
    · subst ht
      have htime := SameTime.requeued (f := Task.setPolicy policy' lp) (fun _ => rfl) t s₁
      exact absurd (htime.policy.symm.trans hshort.1) hnew
    · rw [requeued_sched fun _ => rfl, if_neg ht, hsame.sameTasks.sched] at hshort
      exact absurd hshort hnot

/-- A child is queued only when it is woken. -/
theorem doFork_child_array {cloneFlags : UInt32} {env : ForkEnv}
    (hfork : Step s (.doFork cloneFlags env) s') (hnot : ¬s.ForkRefused cloneFlags env) :
    (s'.task env.child).array = none := by
  rw [doFork_step hfork hnot, copied_child]
  rfl

/-- A task that becomes SHORT goes to `rt_short` if it is queued. -/
theorem array_of_becomes_short (hstep : Step s op s') (hnot : ¬(s.task t).ShortTask)
    (hshort : (s'.task t).ShortTask) :
    (s'.task t).array = none ∨ (s'.task t).array = some s.rq.rtShort := by
  have htime := step_time hstep t
  cases op with
  | setscheduler pid policy param =>
    obtain ⟨⟨r, s₁⟩, hr, rfl⟩ := Option.map_eq_some_iff.mp hstep.2
    exact setscheduler_short hr hnot hshort
  | doFork cloneFlags env =>
    generalize hp : (s'.task t).toTaskSched = p' at htime hshort
    cases htime with
    | same _ h => exact absurd (h.shortTask_iff.mp hshort) hnot
    | forkCopy hcopied ht =>
      rw [ht]
      exact .inl (doFork_child_array hstep hcopied)
  | doForkSplit =>
    generalize (s'.task t).toTaskSched = p' at htime hshort
    cases htime with
    | same _ h => exact absurd (h.shortTask_iff.mp hshort) hnot
    | forkSlice | forkExpired | forkChild => exact absurd hshort hnot
    | forkTick =>
      have hold := (Task.afterTick_short hshort).1
      exact absurd hold hnot
  | schedulerTick =>
    generalize (s'.task t).toTaskSched = p' at htime hshort
    cases htime with
    | same _ h => exact absurd (h.shortTask_iff.mp hshort) hnot
    | tick => exact absurd (Task.afterTick_short hshort).1 hnot
  | schedExit p =>
    generalize (s'.task t).toTaskSched = p' at htime hshort
    cases htime with
    | same _ h => exact absurd (h.shortTask_iff.mp hshort) hnot
    | reap => exact absurd hshort hnot
  | _ =>
    generalize (s'.task t).toTaskSched = p' at htime hshort
    cases htime with
    | same _ h => exact absurd (h.shortTask_iff.mp hshort) hnot

/-! ## The invariant -/

/-- **The linked tasks** say so after every step. -/
theorem Sys.Linked.step (h : s.Linked) (hstep : Step s op s') : s'.Linked := by
  intro t array hmem
  have hmoved : ∀ {a : PrioArrayPtr}, (s'.task t).array = some a → (s'.task t).array ≠ none :=
    fun ha => by rw [ha]; exact Option.some_ne_none _
  cases step_links hstep t with
  | kept _ h' =>
    rw [h'.array]
    exact h t array (h'.entries hmem)
  | unlinked _ _ h' => exact absurd (h'.entries hmem) (Set.notMem_empty array)
  | woken _ _ h' => exact hmoved h'.array
  | forkWoken _ _ _ _ h' => exact hmoved h'.array
  | pulled _ _ _ h' | yielded _ _ h' | ticked _ _ _ h' | reniced _ h' | requeued _ h' =>
    exact hmoved h'.array

/-- A task that becomes SHORT is linked in `rt_short` if anywhere. -/
theorem ShortLinks.of_becomes_short (h : s.Linked) (hstep : Step s op s')
    (hnot : ¬(s.task t).ShortTask) (hshort : (s'.task t).ShortTask) : ShortLinks t s' := by
  refine .of_array (h.step hstep) ?_
  rw [(step_ptrs hstep).1.rtShort]
  exact array_of_becomes_short hstep hnot hshort

theorem ShortLinks.entries_step (h : ShortLinks t s) (hlinked : s.Linked) (hstep : Step s op s')
    (array : PrioArrayPtr) (hshort : (s'.task t).ShortTask) (hmem : array ∈ arraysOf t s'.queues) :
    (s'.task t).array = some array ∨ (s'.task t).array = some s'.rq.rtShort := by
  rw [(step_ptrs hstep).1.rtShort]
  by_cases hold : (s.task t).ShortTask
  swap
  · exact .inr ((array_of_becomes_short hstep hold hshort).resolve_left
      (hlinked.step hstep t array hmem))
  have hmoved : ∀ {a : PrioArrayPtr}, MovedTo a t s' → (s'.task t).array = some array ∨
      (s'.task t).array = some s.rq.rtShort := by
    intro a ha
    rw [Set.mem_singleton_iff.mp (ha.entries hmem)]
    exact .inl ha.array
  cases step_links hstep t with
  | kept _ h' =>
    rw [h'.array]
    exact h.entries array hold (h'.entries hmem)
  | unlinked _ _ h' => exact absurd (h'.entries hmem) (Set.notMem_empty array)
  | woken _ hasleep h' =>
    -- a task that sleeps is linked nowhere
    refine hmoved (h'.movedTo fun a ha => ?_)
    exact absurd hasleep (hlinked t a ha)
  | forkWoken _ _ _ hrtShort h' =>
    rw [h'.array, hrtShort hold]
    exact .inr rfl
  | pulled _ _ _ h' | yielded _ _ h' | ticked _ _ _ h' | reniced _ h' | requeued _ h' =>
    exact hmoved h'

/-- Only `set_user_nice` and `schedule` could bring a SHORT task into the expired array. -/
theorem expired_of_step (hstep : Step s op s') (hnice : ∀ p nice, op ≠ .setUserNice p nice)
    (hsched : op ≠ .schedule ∧ op ≠ .sysSchedYield) (hshort : (s'.task t).ShortTask)
    (harray : (s'.task t).array = some s.rq.expired) :
    (s.task t).ShortTask ∧ (s.task t).array = some s.rq.expired := by
  have hne : ∀ {a : PrioArrayPtr}, a ≠ s.rq.expired → (s'.task t).array ≠ some a := by
    intro a ha hc
    exact ha (Option.some.inj (hc.symm.trans harray))
  constructor
  · by_contra hold
    rcases array_of_becomes_short hstep hold hshort with hnone | hrtShort
    · exact absurd (hnone.symm.trans harray) (Option.some_ne_none _).symm
    · exact hne (rtShort_ne_expired s.rq.toRqPtrs) hrtShort
  cases step_links hstep t with
  | kept _ h' => rw [← h'.array, harray]
  | unlinked _ hop => exact absurd hop (not_or.mpr hsched)
  | woken _ _ h' => exact absurd h'.array (hne (pointer_ne_expired _ _))
  | forkWoken _ _ hexpired _ h' => exact absurd h'.array (hne hexpired)
  | pulled _ _ hor h' =>
    rcases hor with hexpired | ⟨p, nice, hop⟩
    · exact absurd h'.array (hne hexpired)
    · exact absurd hop (hnice p nice)
  | yielded => exact absurd rfl hsched.2
  | ticked _ _ _ h' htick =>
    rcases htick with hpointer | ⟨hother, -⟩
    · exact absurd h'.array (hne (by rw [hpointer]; exact pointer_ne_expired _ _))
    · exact absurd (hother.symm.trans hshort.1) (by decide)
  | reniced nice => exact absurd rfl (hnice t nice)
  | requeued =>
    obtain ⟨⟨r, s₁⟩, hr, rfl⟩ := Option.map_eq_some_iff.mp hstep.2
    rcases setscheduler_links hr t with hkept | ⟨-, array, hexpired, hmoved⟩
    · rw [← hkept.array, harray]
    · exact absurd hmoved.array (hne hexpired)

/-- **A SHORT task is not run from the expired array**, and no step but `set_user_nice` changes
that. -/
theorem ShortLinks.step (h : ShortLinks t s) (hlinked : s.Linked) (hstep : Step s op s')
    (hnice : ∀ p nice, op ≠ .setUserNice p nice) : ShortLinks t s' where
  entries := h.entries_step hlinked hstep
  current hcurr hidle hshort harray := by
    -- a task that `schedule` picks is queued where it says, or in `rt_short`
    have hpicked : ¬(s'.rq.curr = s'.rq.idle ∨ ∃ array, array ∈ arraysOf s'.rq.curr s'.queues ∧
        array ≠ s'.rq.expired) := by
      rw [hcurr]
      rintro (hc | ⟨array, hmem, hne⟩)
      · exact hidle hc
      rcases h.entries_step hlinked hstep array hshort hmem with hown | hrtShort
      · exact hne (Option.some.inj (hown.symm.trans harray))
      · exact rtShort_ne_expired s'.rq.toRqPtrs (Option.some.inj (hrtShort.symm.trans harray))
    by_cases hop : op = .schedule
    · subst hop
      exact hpicked (schedule_curr hstep.2)
    by_cases hop' : op = .sysSchedYield
    · subst hop'
      have hyield : s.sysSchedYield = some s' := hstep.2
      unfold sysSchedYield at hyield
      simp only [Option.bind_eq_bind, Option.bind_eq_some_iff] at hyield
      obtain ⟨s₁, -, hsched⟩ := hyield
      exact hpicked (schedule_curr hsched)
    have hsame := (step_ptrs hstep).2.resolve_right (not_or.mpr ⟨hop, hop'⟩)
    rw [hsame.curr] at hcurr
    rw [hsame.idle] at hidle
    rw [hsame.expired] at harray
    obtain ⟨hold, hexpired⟩ := expired_of_step hstep hnice ⟨hop, hop'⟩ hshort harray
    exact h.current hcurr hidle hold hexpired

end ShortSched
