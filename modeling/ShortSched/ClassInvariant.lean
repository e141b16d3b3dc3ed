import Mathlib.Tactic.MkIffOfInductiveProp
import ShortSched.YieldTheorems
import ShortSched.TickTheorems
import ShortSched.NiceTheorems
import ShortSched.SetschedulerTheorems

/-!
# The class of a task and the array it is queued in

`TaskOk` bounds the priorities of a task by its policy, `Fits` says which arrays the class of a
task allows, and `RqInv` is the representation invariant of the runqueue with both.
-/

namespace ShortSched

open Sys

/-! ## One task -/

/-- A valid priority of a task that is not real-time. -/
abbrev UserRange (prio : ℤ) : Prop := maxRtPrio ≤ prio ∧ prio < maxPrio

/-- The priorities of a task are valid for its policy. -/
@[mk_iff]
structure TaskOk (p : TaskSched) : Prop where
  static_prio : UserRange p.staticPrio
  prio_rt : p.policy = .fifo ∨ p.policy = .rr → 0 ≤ p.prio ∧ p.prio < maxRtPrio
  prio_user : p.policy = .other ∨ p.policy = .short → UserRange p.prio
  overdue_flag : p.iAmOverdue = 0 ∨ p.iAmOverdue = 1
  parked : p.iAmOverdue = 1 → UserRange p.overdueStaticPrio

/-- The class of a task allows the array: real-time and SHORT tasks go to `rt_short`, overdue
tasks to `overdue`, OTHER tasks to `active` or `expired`. -/
@[mk_iff]
structure Fits (q : RqPtrs) (p : TaskSched) (array : PrioArrayPtr) : Prop where
  rt : p.policy = .fifo ∨ p.policy = .rr → array = q.rtShort
  short : p.ShortTask → array = q.rtShort
  overdue : p.OverdueTask → array = q.overdue
  other : p.OtherTask → array = q.active ∨ array = q.expired

/-- The invariant of one task. -/
@[mk_iff]
structure TaskInv (q : RqPtrs) (t : Task) : Prop where
  ok : TaskOk t.toTaskSched
  fits : ∀ array, t.array = some array → Fits q t.toTaskSched array

instance (p : TaskSched) : Decidable (TaskOk p) := decidable_of_iff' _ (taskOk_iff p)

instance (q : RqPtrs) (p : TaskSched) (array : PrioArrayPtr) : Decidable (Fits q p array) :=
  decidable_of_iff' _ (fits_iff q p array)

instance (q : RqPtrs) (t : Task) : Decidable (TaskInv q t) := decidable_of_iff' _ (taskInv_iff q t)

namespace TaskOk

variable {p : TaskSched} {t : Task}

theorem policy_cases (policy : Policy) :
    (policy = .fifo ∨ policy = .rr) ∨ policy = .other ∨ policy = .short := by
  cases policy <;> simp

/-- Every policy has valid priorities only. -/
theorem range (h : TaskOk p) : 0 ≤ p.prio ∧ p.prio < maxPrio := by
  rcases policy_cases p.policy with hrt | huser
  · obtain ⟨h0, h1⟩ := h.prio_rt hrt
    simp only [maxPrio, maxRtPrio, maxUserRtPrio] at h1 ⊢
    omega
  · obtain ⟨h0, h1⟩ := h.prio_user huser
    simp only [maxPrio, maxRtPrio, maxUserRtPrio] at h0 h1 ⊢
    omega

theorem not_rtTask (h : TaskOk p) (huser : p.policy = .other ∨ p.policy = .short) : ¬p.RtTask :=
  not_lt.mpr (h.prio_user huser).1

/-- `rt_task` looks at the priority and finds the policy. -/
theorem rtTask_iff (h : TaskOk p) : p.RtTask ↔ p.policy = .fifo ∨ p.policy = .rr := by
  constructor
  · intro hrt
    rcases policy_cases p.policy with h' | h'
    · exact h'
    · exact absurd hrt (h.not_rtTask h')
  · exact fun hrt => (h.prio_rt hrt).2

/-- An OTHER task belongs to the active array. -/
theorem pointer_of_other (h : TaskOk p) (hother : p.OtherTask) (q : RqPtrs) :
    pointerToMyActivePrioArray p q = q.active := by
  have hrt : ¬(p.ShortTask ∨ p.RtTask) := by
    rintro (hs | hr)
    · exact absurd (hs.1.symm.trans hother) (by decide)
    · exact absurd hr (h.not_rtTask (.inl hother))
  have hover : ¬p.OverdueTask := fun hc => absurd (hc.1.symm.trans hother) (by decide)
  rw [pointerToMyActivePrioArray, if_neg hrt, if_neg hover]

/-- The array that the code derives from the class is one that the class allows. -/
theorem fits_pointer (h : TaskOk p) (q : RqPtrs) : Fits q p (pointerToMyActivePrioArray p q) := by
  refine ⟨fun hrt => ?_, fun hshort => ?_, fun hover => ?_,
    fun hother => .inl (h.pointer_of_other hother q)⟩
  · exact if_pos (.inr (h.rtTask_iff.mpr hrt))
  · exact if_pos (.inl hshort)
  · have hrt : ¬(p.ShortTask ∨ p.RtTask) := by
      rw [h.rtTask_iff]
      rintro (hs | hr | hr)
      · exact absurd (hs.2.symm.trans hover.2) (by decide)
      · exact absurd (hover.1.symm.trans hr) (by decide)
      · exact absurd (hover.1.symm.trans hr) (by decide)
    rw [pointerToMyActivePrioArray, if_neg hrt, if_pos hover]

end TaskOk

theorem TaskOk.iAmOverdue_cases {p : TaskSched} (h : TaskOk p) (hshort : p.policy = .short) :
    p.ShortTask ∨ p.OverdueTask :=
  h.overdue_flag.imp (fun h0 => ⟨hshort, h0⟩) fun h1 => ⟨hshort, h1⟩

/-- Only the class matters. -/
theorem Fits.of_class {q : RqPtrs} {p p' : TaskSched} {array : PrioArrayPtr} (h : Fits q p array)
    (hpolicy : p'.policy = p.policy) (hover : p'.iAmOverdue = p.iAmOverdue) : Fits q p' array where
  rt hrt := h.rt (hpolicy ▸ hrt)
  short hs := h.short ⟨hpolicy.symm.trans hs.1, hover.symm.trans hs.2⟩
  overdue ho := h.overdue ⟨hpolicy.symm.trans ho.1, hover.symm.trans ho.2⟩
  other hother := h.other (hpolicy.symm.trans hother)

/-- An OTHER task may have expired. -/
theorem Fits.expired {q : RqPtrs} {p : TaskSched} (hother : p.OtherTask) : Fits q p q.expired where
  rt hrt := by
    rw [hother] at hrt
    exact absurd hrt (by decide)
  short hs := absurd (hs.1.symm.trans hother) (by decide)
  overdue ho := absurd (ho.1.symm.trans hother) (by decide)
  other _ := .inr rfl

/-- Every allowed array but `expired` is the one that the code derives from the class. -/
theorem Fits.eq_pointer {q : RqPtrs} {p : TaskSched} {array : PrioArrayPtr} (h : Fits q p array)
    (hok : TaskOk p) (hne : array ≠ q.expired) : array = pointerToMyActivePrioArray p q := by
  have hptr := hok.fits_pointer q
  rcases TaskOk.policy_cases p.policy with hrt | hother | hshort
  · rw [h.rt hrt, hptr.rt hrt]
  · rw [(h.other hother).resolve_right hne, hok.pointer_of_other hother]
  · rcases hok.iAmOverdue_cases hshort with hs | ho
    · rw [h.short hs, hptr.short hs]
    · rw [h.overdue ho, hptr.overdue ho]

/-- Exchanging `active` and `expired` changes no fit. -/
theorem Fits.swap {q q' : RqPtrs} {p : TaskSched} {array : PrioArrayPtr} (h : Fits q p array)
    (hq : SamePtrsUpToSwap q q') : Fits q' p array where
  rt hrt := by rw [hq.rtShort]; exact h.rt hrt
  short hs := by rw [hq.rtShort]; exact h.short hs
  overdue ho := by rw [hq.overdue]; exact h.overdue ho
  other hother := by
    rcases hq.swap with ⟨ha, he⟩ | ⟨ha, he⟩
    · rw [ha, he]
      exact h.other hother
    · rw [ha, he]
      exact (h.other hother).symm

/-- Where a task belongs is a matter of its scheduling fields and its array. -/
theorem TaskInv.congr {q q' : RqPtrs} {t t' : Task} (h : TaskInv q t)
    (hq : SamePtrsUpToSwap q q') (hsched : t'.toTaskSched = t.toTaskSched)
    (harray : t'.array = t.array) : TaskInv q' t' where
  ok := hsched ▸ h.ok
  fits array ha := by
    rw [hsched]
    exact (h.fits array (harray ▸ ha)).swap hq

/-! ## What keeps a task valid -/

section preservation
variable [Param] {p : TaskSched} {t : Task}

/-- The bonus keeps a user priority in range. -/
theorem effectivePrio_range (h : UserRange t.staticPrio) : UserRange t.effectivePrio := by
  unfold Task.effectivePrio
  split
  · exact h
  split
  · decide
  · -- the result is clamped, whatever the bonus
    dsimp only
    generalize t.staticPrio - _ = prio
    constructor <;> simp only [maxPrio, maxRtPrio, maxUserRtPrio] <;> omega

namespace TaskOk

omit [Param] in
/-- A new priority for a task that is not real-time. -/
theorem setPrio (h : TaskOk p) (hrt : ¬p.RtTask) {prio : ℤ} (hprio : UserRange prio) :
    TaskOk { p with prio := prio } where
  static_prio := h.static_prio
  prio_rt hpolicy := absurd (h.rtTask_iff.mpr hpolicy) hrt
  prio_user _ := hprio
  overdue_flag := h.overdue_flag
  parked := h.parked

omit [Param] in
/-- The time slices of a task do not matter. -/
theorem setSlice (h : TaskOk p) (timeSlice firstTimeSlice : UInt32) :
    TaskOk { p with timeSlice := timeSlice, firstTimeSlice := firstTimeSlice } :=
  ⟨h.static_prio, h.prio_rt, h.prio_user, h.overdue_flag, h.parked⟩

omit [Param] in
/-- A yield leaves a real-time task where it is and takes another one down at most. -/
theorem yield {s : Sys} {p : TaskId} (h : TaskOk (s.task p).toTaskSched) (array : PrioArrayPtr) :
    TaskOk { (s.task p).toTaskSched with prio := s.yieldPrio p array } := by
  by_cases hrt : (s.task p).RtTask
  · rw [yieldPrio_of_stay (.inl hrt)]
    exact h
  · have hrange := yieldPrio_range array h.range
    exact h.setPrio hrt ⟨(not_lt.mp hrt).trans hrange.1, hrange.2⟩

/-- The priority that a wake-up computes fits the policy. -/
theorem woken (h : TaskOk t.toTaskSched) (jiffies : UInt32) :
    TaskOk (t.woken jiffies).toTaskSched := by
  rw [Task.woken_sched]
  unfold Task.woken
  split
  · next hw =>
    apply h.setPrio hw.1
    simp only [Task.creditSleep]
    split <;> exact effectivePrio_range h.static_prio
  · exact h

/-- The end of a slice leaves priorities that fit the class after it. -/
theorem expire (h : TaskOk t.toTaskSched) (hrt : ¬t.RtTask) : TaskOk t.expire.toTaskSched := by
  unfold Task.expire Task.expireClass
  by_cases hover : t.OverdueTask
  · simp only [if_pos hover]
    have hparked := h.parked hover.2
    refine ⟨hparked, nofun, fun _ => ?_, .inl rfl, nofun⟩
    dsimp only
    exact effectivePrio_range hparked
  simp only [if_neg hover]
  by_cases hshort : t.ShortTask
  · simp only [if_pos hshort]
    have hnew : UserRange overduePrio := by decide
    refine ⟨hnew, ?_, fun _ => ?_, .inr rfl, fun _ => h.static_prio⟩
    · intro hpolicy
      exact absurd (h.rtTask_iff.mpr hpolicy) hrt
    · dsimp only
      exact effectivePrio_range hnew
  · simp only [if_neg hshort]
    refine ⟨h.static_prio, ?_, fun _ => ?_, h.overdue_flag, h.parked⟩
    · intro hpolicy
      exact absurd (h.rtTask_iff.mpr hpolicy) hrt
    · dsimp only
      exact effectivePrio_range h.static_prio

omit [Param] in
theorem tick (h : TaskOk t.toTaskSched) : TaskOk t.tick.toTaskSched := by
  rw [Task.tick_sched]
  exact h.setSlice _ _

/-- So does a tick. -/
theorem afterTick (h : TaskOk t.toTaskSched) : TaskOk t.afterTick.toTaskSched := by
  rcases t.afterTick_cases with ⟨_, _, -, heq⟩ | ⟨hrt, -, heq⟩
  · rw [heq]
    exact h.setSlice _ _
  · rw [heq]
    apply h.tick.expire
    rwa [Task.tick_sched]

omit [Param] in
/-- A nice value is a user priority. -/
theorem renice (h : TaskOk p) (nice : ℤ) : TaskOk (p.renice nice) := by
  unfold TaskSched.renice
  split
  · exact h
  · next hnice =>
    have hrange : UserRange (niceToPrio nice) := by
      rw [not_or, not_or] at hnice
      constructor <;> simp only [niceToPrio, maxPrio, maxRtPrio, maxUserRtPrio] <;> omega
    split
    · exact ⟨hrange, h.prio_rt, h.prio_user, h.overdue_flag, h.parked⟩
    split
    · exact ⟨h.static_prio, h.prio_rt, h.prio_user, h.overdue_flag, fun _ => hrange⟩
    split
    · exact h
    · next hrt _ _ =>
      refine ⟨hrange, ?_, fun _ => hrange, h.overdue_flag, h.parked⟩
      exact fun hpolicy => absurd (h.rtTask_iff.mpr hpolicy) hrt

theorem makeShort (h : TaskOk t.toTaskSched) (hother : t.OtherTask) (lp : SchedParam) :
    TaskOk (t.makeShort lp).toTaskSched :=
  ⟨h.static_prio, nofun, fun _ => h.prio_user (.inl hother), h.overdue_flag, h.parked⟩

theorem adjustShort (h : TaskOk t.toTaskSched) (lp : SchedParam) :
    TaskOk (t.adjustShort lp).toTaskSched :=
  ⟨h.static_prio, h.prio_rt, h.prio_user, h.overdue_flag, h.parked⟩

omit [Param] in
/-- `setscheduler` checks the priority that it sets. -/
theorem setPolicy (h : TaskOk t.toTaskSched) {policy : Policy} {lp : SchedParam}
    (hnew : policy ≠ .short)
    (hprio : 0 ≤ lp.schedPriority.toInt ∧ lp.schedPriority.toInt ≤ maxUserRtPrio - 1) :
    TaskOk (t.setPolicy policy lp).toTaskSched := by
  unfold Task.setPolicy
  refine ⟨h.static_prio, ?_, ?_, h.overdue_flag, h.parked⟩
  · intro hrt
    have hne : policy ≠ .other := by rcases hrt with h | h <;> simp_all
    simp only [if_pos hne, maxRtPrio, maxUserRtPrio] at hprio ⊢
    omega
  · intro huser
    have hother : policy = .other := huser.resolve_right hnew
    simp only [hother, ne_eq, not_true_eq_false, if_false]
    exact h.static_prio

end TaskOk

end preservation

/-! ## The invariant of the runqueue -/

namespace Sys

/-- **The representation invariant.** The idle task is never queued (`RqAgree`), always ready
and runs at `MAX_PRIO`; every other task is valid and queued where its class says. -/
structure RqInv (s : Sys) : Prop extends s.RqAgree where
  idle_runs : s.IdleRuns
  idle_prio : (s.task s.rq.idle).prio = maxPrio
  tasks : ∀ t, t ≠ s.rq.idle → TaskInv s.rq.toRqPtrs (s.task t)

/-- No task is in the middle of a fork. -/
def NoFlags (s : Sys) : Prop := ∀ t, (s.task t).justGotForked = 0

end Sys
end ShortSched
