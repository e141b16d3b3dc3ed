import ShortSched.InvariantSteps
import ShortSched.Preemption

/-!
# Which changes of priority reschedule

`set_user_nice` asks for a reschedule where its task is `current`. Its other test compares the
new priority with `static_prio`, which is the new priority by then. `setscheduler` asks for one
where its task is or becomes SHORT, and for none when it moves a task among the other policies.
-/

namespace ShortSched
namespace Sys

variable {s s' : Sys} {p t : TaskId} {array : PrioArrayPtr} {prio : ℤ}

/-! ## A task in front of `current` -/

/-- Some queued task comes before `current`. -/
def Preceded (s : Sys) : Prop :=
  ∃ t, t ≠ s.rq.curr ∧ (s.task t).array ≠ none ∧ s.schedKey t < s.schedKey s.rq.curr

/-- A change that puts a task in front of `current` leaves its `need_resched` set. -/
def Reschedules (s s' : Sys) : Prop :=
  ¬s.Preceded → s'.Preceded → (s'.task s.rq.curr).needResched = 1

/-- A change that moves no task of the order needs no reschedule. -/
theorem reschedules_of_same (hptrs : SamePtrs s.rq.toRqPtrs s'.rq.toRqPtrs)
    (harray : ∀ t, (s'.task t).array = (s.task t).array)
    (hprio : ∀ t, (s'.task t).prio = (s.task t).prio) : s.Reschedules s' := by
  intro hfirst hpreceded
  have hkey : ∀ t, s'.schedKey t = s.schedKey t := by
    intro t
    rw [schedKey, schedKey, hptrs.arrayRank_eq, harray, hprio]
  obtain ⟨t, ht, hqueued, hlt⟩ := hpreceded
  rw [hptrs.curr] at ht hlt
  rw [harray] at hqueued
  rw [hkey, hkey] at hlt
  exact absurd ⟨t, ht, hqueued, hlt⟩ hfirst

/-! ## A task in another place -/

/-- The array and the priority of a task once `p` is in `array` at `prio`, and with it the tasks
that the fork branch pulls along. -/
def keyWith (s : Sys) (p : TaskId) (array : PrioArrayPtr) (prio : ℤ) (t : TaskId) : ℕ ×ₗ ℤ :=
  toLex (arrayRank s.rq.toRqPtrs
      (if t = p ∨ t ∈ s.pulled p then some array else (s.task t).array),
    if t = p then prio else (s.task t).prio)

/-- With `p` in that place some task comes before `current`. -/
def Overtakes (s : Sys) (p : TaskId) (array : PrioArrayPtr) (prio : ℤ) : Prop :=
  ∃ t, t ≠ s.rq.curr ∧ (t = p ∨ t ∈ s.pulled p ∨ (s.task t).array ≠ none) ∧
    s.keyWith p array prio t < s.keyWith p array prio s.rq.curr

/-- A change that puts `p` in `array` at `prio`. -/
structure Replaces (p : TaskId) (array : PrioArrayPtr) (prio : ℤ) (s s' : Sys) : Prop where
  ptrs : SamePtrs s.rq.toRqPtrs s'.rq.toRqPtrs
  array : ∀ t, (s'.task t).array =
    if t = p ∨ t ∈ s.pulled p then some array else (s.task t).array
  prio : ∀ t, (s'.task t).prio = if t = p then prio else (s.task t).prio

theorem Replaces.schedKey_eq (h : Replaces p array prio s s') (t : TaskId) :
    s'.schedKey t = s.keyWith p array prio t := by
  rw [schedKey, keyWith, h.ptrs.arrayRank_eq, h.array, h.prio]

/-- Whether `current` is preceded afterwards can be seen before. -/
theorem Replaces.preceded_iff (h : Replaces p array prio s s') :
    s'.Preceded ↔ s.Overtakes p array prio := by
  have hqueued : ∀ t, (s'.task t).array ≠ none ↔
      (t = p ∨ t ∈ s.pulled p ∨ (s.task t).array ≠ none) := by
    intro t
    rw [h.array, ← or_assoc]
    split
    · next ht => exact iff_of_true (Option.some_ne_none _) (.inl ht)
    · next ht => exact ⟨.inr, fun hor => hor.resolve_left ht⟩
  simp only [Preceded, Overtakes, h.schedKey_eq, h.ptrs.curr, hqueued]

/-- Such a change reschedules unless it puts a task in front of `current` and leaves
`need_resched` alone. -/
theorem Replaces.reschedules_iff (h : Replaces p array prio s s') :
    s.Reschedules s' ↔ (s'.task s.rq.curr).needResched = 1 ∨ s.Preceded ∨
      ¬s.Overtakes p array prio := by
  rw [Reschedules, h.preceded_iff]
  tauto

/-- Without a fork branch, another task than `current` overtakes by its own place. -/
theorem overtakes_iff (hp : p ≠ s.rq.curr) (hpulled : s.pulled p = []) (hfirst : ¬s.Preceded) :
    s.Overtakes p array prio ↔
      toLex (arrayRank s.rq.toRqPtrs (some array), prio) < s.schedKey s.rq.curr := by
  have hkey : ∀ t, t ≠ p → s.keyWith p array prio t = s.schedKey t := by
    intro t ht
    rw [keyWith, schedKey, if_neg ht, if_neg (by simp [ht, hpulled])]
  have hself : s.keyWith p array prio p =
      toLex (arrayRank s.rq.toRqPtrs (some array), prio) := by
    rw [keyWith, if_pos (.inl rfl), if_pos rfl]
  constructor
  · rintro ⟨t, ht, hqueued, hlt⟩
    rw [hkey _ hp.symm] at hlt
    by_cases htp : t = p
    · rwa [htp, hself] at hlt
    · rw [hkey t htp] at hlt
      have hq : (s.task t).array ≠ none := by simpa [htp, hpulled] using hqueued
      exact absurd ⟨t, ht, hq, hlt⟩ hfirst
  · intro hlt
    exact ⟨p, hp, .inl rfl, by rwa [hself, hkey _ hp.symm]⟩

/-! ## `set_user_nice` -/

/-- The call gets as far as `dequeue_task`. -/
abbrev Renices (s : Sys) (p : TaskId) (nice : ℤ) : Prop :=
  (s.task p).taskNice ≠ nice ∧ ¬(s.task p).RtTask ∧ ¬(s.task p).OverdueTask ∧
    ¬((s.task p).ShortTask ∧ (s.task p).staticPrio = niceToPrio nice)

/-- `set_user_nice` on a queued task: by the time of the comparison `static_prio` is the new
priority, so that only `current` is rescheduled. -/
theorem setUserNice_of_renices {nice : ℤ} (hnice : -20 ≤ nice ∧ nice ≤ 19)
    (harray : (s.task p).array = some array) (h : s.Renices p nice) :
    s.setUserNice p nice = if p = s.rq.curr then
      (s.reniceQueued p nice array).setTskNeedResched s.rq.curr
    else s.reniceQueued p nice array := by
  obtain ⟨hsame, hrt, hover, hshort⟩ := h
  have harg : ¬((s.task p).taskNice = nice ∨ nice < -20 ∨ nice > 19) := by
    rw [not_or, not_or, not_lt, not_lt]
    exact ⟨hsame, hnice.1, hnice.2⟩
  have hcurr : (s.reniceQueued p nice array).rq.curr = s.rq.curr := by
    rw [reniceQueued, enqueueTask_ptrs, modify_rq, dequeueTask_ptrs]
  have hstatic : ((s.reniceQueued p nice array).task p).staticPrio = niceToPrio nice := by
    rw [reniceQueued_task, modify_task, Function.update_self]
    rfl
  rw [setUserNice, if_neg harg, if_neg hrt, if_neg hover, if_neg hshort, harray]
  change (if niceToPrio nice < ((s.reniceQueued p nice array).task p).staticPrio ∨
    p = (s.reniceQueued p nice array).rq.curr then (s.reniceQueued p nice array).setTskNeedResched
      (s.reniceQueued p nice array).rq.curr else s.reniceQueued p nice array) = _
  rw [hstatic, hcurr]
  simp only [lt_irrefl, false_or]

/-- `set_user_nice` moves a queued task to the level of its new priority. -/
theorem replaces_reniceQueued (p : TaskId) (nice : ℤ) (array : PrioArrayPtr) (s : Sys) :
    Replaces p array (niceToPrio nice) s (s.reniceQueued p nice array) where
  ptrs := by
    rw [reniceQueued, enqueueTask_ptrs, modify_rq, dequeueTask_ptrs]
    exact .refl _
  array t := by rw [reniceQueued_task]
  prio t := by
    rw [reniceQueued_task]
    by_cases ht : t = p
    · rw [if_pos ht, ht, modify_task, Function.update_self]
      rfl
    · rw [if_neg ht, modify_task, Function.update_of_ne ht]

/-- A call that does not get that far moves no task of the order. -/
theorem reschedules_of_not_renices {nice : ℤ} (h : ¬s.Renices p nice) :
    s.Reschedules (s.setUserNice p nice) := by
  unfold setUserNice
  by_cases harg : (s.task p).taskNice = nice ∨ nice < -20 ∨ nice > 19
  · rw [if_pos harg]
    exact reschedules_of_same (.refl _) (fun _ => rfl) fun _ => rfl
  rw [if_neg harg]
  by_cases hrt : (s.task p).RtTask
  · rw [if_pos hrt]
    exact reschedules_of_same (.refl _) (modify_proj (fun t => t.array) rfl)
      (modify_proj (fun t => t.prio) rfl)
  rw [if_neg hrt]
  by_cases hover : (s.task p).OverdueTask
  · rw [if_pos hover]
    exact reschedules_of_same (.refl _) (modify_proj (fun t => t.array) rfl)
      (modify_proj (fun t => t.prio) rfl)
  rw [if_neg hover]
  by_cases hshort : (s.task p).ShortTask ∧ (s.task p).staticPrio = niceToPrio nice
  · rw [if_pos hshort]
    exact reschedules_of_same (.refl _) (fun _ => rfl) fun _ => rfl
  · rw [not_or] at harg
    exact absurd ⟨harg.1, hrt, hover, hshort⟩ h

/-- Which calls of `set_user_nice` on a queued task reschedule. -/
theorem setUserNice_reschedules_iff {nice : ℤ} (hnice : -20 ≤ nice ∧ nice ≤ 19)
    (harray : (s.task p).array = some array) :
    s.Reschedules (s.setUserNice p nice) ↔
      s.current.needResched = 1 ∨ s.Preceded ∨ p = s.rq.curr ∨
        (s.Renices p nice → ¬s.Overtakes p array (niceToPrio nice)) := by
  by_cases hrenices : s.Renices p nice
  swap
  · exact iff_of_true (reschedules_of_not_renices hrenices)
      (.inr (.inr (.inr fun h => absurd h hrenices)))
  rw [setUserNice_of_renices hnice harray hrenices]
  by_cases hp : p = s.rq.curr
  · rw [if_pos hp]
    refine iff_of_true (fun _ _ => ?_) (.inr (.inr (.inl hp)))
    rw [setTskNeedResched, modify_task, Function.update_self]
  · have hflag : ((s.reniceQueued p nice array).task s.rq.curr).needResched =
        s.current.needResched := by
      rw [reniceQueued_task, modify_task, Function.update_of_ne (Ne.symm hp)]
    rw [if_neg hp, (replaces_reniceQueued p nice array s).reschedules_iff, hflag,
      forall_prop_of_true hrenices]
    simp only [hp, false_or]

/-! ## `setscheduler` -/

theorem pulled_of_curr_not_short (hpolicy : s.current.policy ≠ .short) (p : TaskId) :
    s.pulled p = [] :=
  pulled_of_not_forkBranch fun h => hpolicy h.1

section setscheduler
variable [Param]

/-- Where a call that asks for `policy` puts its task. -/
def placeUnder (s : Sys) (p : TaskId) (policy : Policy) (lp : SchedParam) : PrioArrayPtr :=
  pointerToMyActivePrioArray ((s.task p).setPolicy policy lp).toTaskSched s.rq.toRqPtrs

/-- The priority that a queued task gets from a call that asks for `policy`. -/
def prioUnder (s : Sys) (p : TaskId) (policy : Policy) (lp : SchedParam) : ℤ :=
  (((s.task p).setPolicy policy lp).woken s.jiffies).prio

/-- A queued task that changes among the policies other than SHORT is queued again, and nothing
tells `current`. -/
theorem replaces_setPolicy {policy : Policy} {lp : SchedParam} (hsame : SameButFlags s s')
    (hqueued : (s.task p).array ≠ none) (hnot : (s.task p).policy ≠ .short)
    (hnew : policy ≠ .short) :
    Replaces p (s.placeUnder p policy lp) (s.prioUnder p policy lp) s
        (s'.requeued p (Task.setPolicy policy lp)) ∧
      ((s'.requeued p (Task.setPolicy policy lp)).task s.rq.curr).needResched =
        s.current.needResched := by
  obtain ⟨array, harray⟩ := Option.ne_none_iff_exists'.mp hqueued
  have harray' : (s'.task p).array = some array := by rw [hsame.sameTasks.array, harray]
  -- the fork branch looks at `current` only, and that is SHORT neither before nor after
  have hpulled : (s'.modify p (Task.setPolicy policy lp)).pulled p = s.pulled p := by
    by_cases hp : p = s.rq.curr
    · have hbefore : s.current.policy ≠ .short := by rwa [current, ← hp]
      have hafter : (s'.modify p (Task.setPolicy policy lp)).current.policy ≠ .short := by
        rw [current, modify_rq, hsame.rq, ← hp, modify_task, Function.update_self]
        exact hnew
      rw [pulled_of_curr_not_short hbefore, pulled_of_curr_not_short hafter]
    · have hforks : SameForks s' (s'.modify p (Task.setPolicy policy lp)) :=
        { curr := rfl
          tasklist := rfl
          policy := by
            rw [current, current, modify_rq, hsame.rq, modify_task, Function.update_of_ne (Ne.symm hp)]
          iAmOverdue := modify_proj (fun t => t.iAmOverdue) rfl
          justGotForked := modify_proj (fun t => t.justGotForked) rfl
          pOpptr := modify_proj (fun t => t.pOpptr) rfl }
      rw [hforks.pulled_eq, hsame.sameForks.pulled_eq]
  obtain ⟨flags, htask⟩ := hsame.task p
  have hself : ((s'.task p).setPolicy policy lp).toTaskSched =
      ((s.task p).setPolicy policy lp).toTaskSched := by
    rw [htask]
    rfl
  have hwoken : (((s'.task p).setPolicy policy lp).woken s.jiffies).toTaskSched =
      (((s.task p).setPolicy policy lp).woken s.jiffies).toTaskSched := by
    apply Task.woken_congr s.jiffies hself
    · rw [htask]
      rfl
    · rw [htask]
      rfl
  refine ⟨⟨?_, fun t => ?_, fun t => ?_⟩, ?_⟩
  · rw [← hsame.rq]
    exact samePtrs_requeued p _ s'
  · rw [requeued_task (fun _ => rfl) harray']
    simp only [hpulled, hself, hsame.rq, hsame.sameTasks.array, placeUnder]
  · rw [requeued_sched (fun _ => rfl), hsame.jiffies, harray', if_neg (Option.some_ne_none array)]
    split
    · rw [hwoken, prioUnder]
    · rw [hsame.sameTasks.sched]
  · obtain ⟨flags', hcurr⟩ := hsame.task s.rq.curr
    rw [requeued_task (fun _ => rfl) harray']
    have hkept : ∀ u : Task, ((u.setPolicy policy lp).woken s'.jiffies).needResched =
        u.needResched := fun u => Task.woken_needResched _ _
    refine (modify_proj (fun t => t.needResched) (hkept _) _).trans ?_
    rw [hcurr]

/-- A call that returns 0 and asks for another policy than SHORT makes that change. -/
theorem setscheduler_of_requested {pid policy : ℤ} {param : UserParam} {lp : SchedParam}
    {policy' : Policy} (target : Target s pid param p lp)
    (hcall : s.setscheduler pid policy param = some (0, s'))
    (hrequest : s.requestedPolicy p policy = some policy') (hnew : policy' ≠ .short) :
    (s.task p).policy ≠ .short ∧ ∃ s₁, SameButFlags s s₁ ∧
      s' = s₁.requeued p (Task.setPolicy policy' lp) := by
  rw [setscheduler_of_request target hrequest] at hcall
  by_cases hshort : (s.task p).policy = .short
  · rw [if_pos hshort, if_neg hnew, Option.some.injEq, Prod.mk.injEq] at hcall
    exact absurd hcall.1 (by decide)
  rw [if_neg hshort, if_neg hnew] at hcall
  obtain ⟨r, hr, hcase⟩ := s.changePolicy_cases p policy' lp
  rw [hcall] at hr
  obtain rfl := Option.some.inj hr
  refine ⟨hshort, ?_⟩
  cases hcase with
  | refused hneg => exact absurd hneg (lt_irrefl 0)
  | changed _ _ hsame => exact ⟨_, hsame, rfl⟩

/-- A change to SHORT that succeeds asks for a reschedule. -/
theorem changeToShort_needResched {lp : SchedParam} (hcall : s.changeToShort p lp = some (0, s')) :
    (s'.task s.rq.curr).needResched = 1 := by
  have hraised : ∀ s₁ : Sys, some ((0 : ℤ), s₁.setTskNeedResched s.rq.curr) = some (0, s') →
      (s'.task s.rq.curr).needResched = 1 := by
    intro s₁ h
    obtain rfl : s₁.setTskNeedResched s.rq.curr = s' := congrArg Prod.snd (Option.some.inj h)
    rw [setTskNeedResched, modify_task, Function.update_self]
  by_cases hshort : (s.task p).policy = .short
  · rw [changeToShort_adjust hshort] at hcall
    split at hcall
    · exact hraised _ hcall
    · exact absurd hcall (error_ne_zero (by decide))
  · rw [changeToShort_make hshort] at hcall
    split at hcall
    · exact hraised _ hcall
    · exact absurd hcall (error_ne_zero (by decide))

/-- A call that returns 0 and asks for SHORT reschedules. -/
theorem setscheduler_of_short {pid policy : ℤ} {param : UserParam} {lp : SchedParam}
    (target : Target s pid param p lp)
    (hcall : s.setscheduler pid policy param = some (0, s'))
    (hrequest : s.requestedPolicy p policy = some .short) :
    (s'.task s.rq.curr).needResched = 1 := by
  rw [setscheduler_of_request target hrequest] at hcall
  by_cases hshort : (s.task p).policy = .short
  · rw [if_pos hshort, if_pos rfl] at hcall
    split at hcall
    · exact changeToShort_needResched hcall
    · exact absurd hcall (error_ne_zero (by decide))
  rw [if_neg hshort, if_pos rfl] at hcall
  split at hcall
  · exact absurd hcall (error_ne_zero (by decide))
  split at hcall
  · exact absurd hcall (error_ne_zero (by decide))
  · exact changeToShort_needResched hcall

/-- Which calls of `setscheduler` that return 0 reschedule. -/
theorem setscheduler_reschedules_iff {pid policy : ℤ} {param : UserParam} {lp : SchedParam}
    (target : Target s pid param p lp) (hqueued : (s.task p).array ≠ none)
    (hcall : s.setscheduler pid policy param = some (0, s')) :
    s.Reschedules s' ↔ s.current.needResched = 1 ∨ s.Preceded ∨
      ∀ policy', s.requestedPolicy p policy = some policy' → policy' ≠ .short →
        ¬s.Overtakes p (s.placeUnder p policy' lp) (s.prioUnder p policy' lp) := by
  by_cases hshort : s.requestedPolicy p policy = some .short
  · refine iff_of_true (fun _ _ => setscheduler_of_short target hcall hshort) ?_
    refine .inr (.inr fun policy' hrequest hnew => absurd ?_ hnew)
    rw [hrequest] at hshort
    exact Option.some.inj hshort
  cases hrequest : s.requestedPolicy p policy with
  | none =>
    rw [setscheduler_of_no_policy target hrequest] at hcall
    exact absurd hcall (error_ne_zero (by decide))
  | some policy' =>
    have hnew : policy' ≠ .short := by
      rintro rfl
      exact hshort hrequest
    obtain ⟨hnot, s₁, hsame, rfl⟩ := setscheduler_of_requested target hcall hrequest hnew
    obtain ⟨hreplaces, hflag⟩ := replaces_setPolicy hsame hqueued hnot hnew
    rw [hreplaces.reschedules_iff, hflag]
    simp only [Option.some.injEq, forall_eq', hnew, ne_eq, not_false_eq_true, true_imp_iff]

/-- **Changes of priority** reschedule but where they put a task in front of `current` without
telling it: another task gets a better nice value, or a task moves among the policies other than
SHORT. -/
theorem reprioritise_reschedules_iff (harray : (s.task p).array = some array) :
    (∀ nice : ℤ, -20 ≤ nice ∧ nice ≤ 19 →
        (s.Reschedules (s.setUserNice p nice) ↔
          s.current.needResched = 1 ∨ s.Preceded ∨ p = s.rq.curr ∨
            (s.Renices p nice → ¬s.Overtakes p array (niceToPrio nice)))) ∧
      ∀ (pid policy : ℤ) (param : UserParam) (lp : SchedParam) (s' : Sys),
        s.Target pid param p lp → s.setscheduler pid policy param = some (0, s') →
        (s.Reschedules s' ↔ s.current.needResched = 1 ∨ s.Preceded ∨
          ∀ policy', s.requestedPolicy p policy = some policy' → policy' ≠ .short →
            ¬s.Overtakes p (s.placeUnder p policy' lp) (s.prioUnder p policy' lp)) := by
  refine ⟨fun nice hnice => setUserNice_reschedules_iff hnice harray, ?_⟩
  intro pid policy param lp s' target hcall
  apply setscheduler_reschedules_iff target _ hcall
  rw [harray]
  exact Option.some_ne_none array

end setscheduler

/-- Two OTHER tasks of the superuser, of which the one of the better nice value runs. -/
def twoOthers : Sys :=
  ofList [{ timeSlice := 15, pid := 1, array := some .arrays0, capSysNice := true },
    { timeSlice := 15, pid := 2, array := some .arrays0, prio := 125, staticPrio := 125 }] 1

theorem rqInv_twoOthers : twoOthers.RqInv := rqInv_ofList (by decide) (by decide)

/-- The runqueue of the example runs its best task. -/
theorem twoOthers_not_preceded : ¬twoOthers.Preceded := by
  rintro ⟨t, -, hqueued, hlt⟩
  have hbehind : (twoOthers.task t).array ≠ none → ¬twoOthers.schedKey t < twoOthers.schedKey 1 :=
    ofList_forall (P := fun u => u.array ≠ none →
      ¬toLex (arrayRank twoOthers.rq.toRqPtrs u.array, u.prio) < twoOthers.schedKey 1)
      (by decide) (fun _ h => absurd rfl h) (by decide +kernel) 1 t
  exact hbehind hqueued hlt

/-- `set_user_nice` makes the waiting task the better one, and `setscheduler` makes it FIFO. -/
theorem reprioritise_without_resched :
    twoOthers.RqInv ∧ twoOthers.NoFlags ∧ (twoOthers.task 2).array = some .arrays0 ∧
      ¬twoOthers.Preceded ∧
      (twoOthers.setUserNice 2 (-5)).Preceded ∧
      ((twoOthers.setUserNice 2 (-5)).task 1).needResched = 0 ∧
      ∃ s', @setscheduler hz100 2 1 (.valid ⟨50, 0⟩) twoOthers = some (0, s') ∧ s'.Preceded ∧
        (s'.task 1).needResched = 0 := by
  refine ⟨rqInv_twoOthers, noFlags_ofList (by decide), rfl, twoOthers_not_preceded,
    ⟨2, by decide, by decide, by decide +kernel⟩, by decide +kernel, ?_⟩
  have hcall : (@setscheduler hz100 2 1 (.valid ⟨50, 0⟩) twoOthers).map (fun r =>
      (r.1, decide (2 ≠ r.2.rq.curr ∧ (r.2.task 2).array ≠ none ∧
        r.2.schedKey 2 < r.2.schedKey r.2.rq.curr), (r.2.task 1).needResched)) =
      some (0, true, 0) := by decide +kernel
  obtain ⟨⟨r, s'⟩, hs', hval⟩ := Option.map_eq_some_iff.mp hcall
  obtain ⟨hr, hval'⟩ := Prod.mk.injEq .. ▸ hval
  obtain ⟨hfirst, hflag⟩ := Prod.mk.injEq .. ▸ hval'
  dsimp only at hr
  subst hr
  exact ⟨s', hs', ⟨2, of_decide_eq_true hfirst⟩, hflag⟩

/-- Its own nice value reschedules a task; the nice value of the other task does not. -/
theorem reprioritise_reschedules_iff_twoOthers :
    twoOthers.Reschedules (twoOthers.setUserNice 1 10) ∧
      ¬twoOthers.Reschedules (twoOthers.setUserNice 2 (-5)) := by
  have hcurr := (@reprioritise_reschedules_iff twoOthers 1 .arrays0 hz100 rfl).1 10 (by decide)
  have hother := (@reprioritise_reschedules_iff twoOthers 2 .arrays0 hz100 rfl).1 (-5) (by decide)
  refine ⟨hcurr.mpr (.inr (.inr (.inl rfl))), fun h => ?_⟩
  rcases hother.mp h with h | h | h | h
  · exact absurd h (by decide)
  · exact twoOthers_not_preceded h
  · exact absurd h (by decide)
  · exact h (by decide) ⟨2, by decide, .inl rfl, by decide +kernel⟩

end Sys
end ShortSched
