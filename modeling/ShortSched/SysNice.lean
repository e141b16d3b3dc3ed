import ShortSched.NiceRuns

/-!
# `sys_nice`

`sys_nice` adds its increment to the nice value that `static_prio` shows. For an overdue task
that is 19 whatever its own value is, and `set_user_nice` takes a call that sets 19 for one that
changes nothing.
-/

namespace ShortSched

/-- A nice value brought into the range of nice values. -/
def clampNice (nice : ℤ) : ℤ := max (-20) (min 19 nice)

/-- An increment brought into the range of differences of nice values. -/
def clampIncrement (increment : ℤ) : ℤ := max (-40) (min 40 increment)

namespace Sys

variable {s : Sys} {increment : ℤ}

/-- The increment is added to the real nice value of `current`, unless the caller may not. -/
structure NiceIsRelative (increment : ℤ) (s : Sys) : Prop where
  accepted : (s.sysNice increment).1 = 0 →
    ((s.sysNice increment).2.task s.rq.curr).realNice =
      clampNice (s.current.realNice + clampIncrement increment)
  refused : (s.sysNice increment).1 = -ePERM →
    ((s.sysNice increment).2.task s.rq.curr).realNice = s.current.realNice

/-- Only a privileged caller may ask for a better value. -/
abbrev NiceRefused (increment : ℤ) (s : Sys) : Prop :=
  increment < 0 ∧ s.current.capSysNice = false

theorem sysNice_of_refused (h : s.NiceRefused increment) :
    s.sysNice increment = (-ePERM, s) := by
  have hcap : s.capableSysNice = (false, s) := by
    rw [capableSysNice, h.2]
    rfl
  rw [sysNice, if_pos h.1, hcap]
  rfl

/-- Any other call is a `set_user_nice` of `current`. -/
theorem sysNice_of_not_refused (h : ¬s.NiceRefused increment) :
    (s.sysNice increment).1 = 0 ∧
      ((s.sysNice increment).2.task s.rq.curr).toTaskSched =
        s.current.renice (clampNice (s.current.taskNice + clampIncrement increment)) := by
  have hcap : ∃ s₁, (if increment < 0 then s.capableSysNice else (true, s)) = (true, s₁) ∧
      SameButFlags s s₁ := by
    by_cases hneg : increment < 0
    · rw [if_pos hneg]
      have hprivileged : s.current.capSysNice = true := by
        by_contra hc
        exact h ⟨hneg, Bool.eq_false_iff.mpr hc⟩
      have hsame := s.sameButFlags_capableSysNice
      rw [capableSysNice, if_pos hprivileged] at hsame ⊢
      exact ⟨_, rfl, hsame⟩
    · rw [if_neg hneg]
      exact ⟨s, rfl, .refl s⟩
  obtain ⟨s₁, hs₁, hsame⟩ := hcap
  have hcurr : s₁.rq.curr = s.rq.curr := by rw [hsame.rq]
  have hsched : s₁.current.toTaskSched = s.current.toTaskSched := by
    rw [current, hcurr]
    exact hsame.sameTasks.sched _
  unfold sysNice
  rw [hs₁]
  simp only [not_true_eq_false, if_false]
  refine ⟨trivial, ?_⟩
  rw [setUserNice_sched, if_pos hcurr.symm]
  show s₁.current.renice _ = _
  rw [hsched]
  apply congrArg (TaskSched.renice · _)
  unfold clampNice clampIncrement
  split <;> split <;> split <;> split <;> omega

theorem clampNice_range (nice : ℤ) : -20 ≤ clampNice nice ∧ clampNice nice ≤ 19 := by
  unfold clampNice
  omega

/-- The new value of a caller that may ask for it: an overdue one starts from 19. -/
theorem sysNice_realNice (h : LifeInv s.current.toTaskSched) (hmay : ¬s.NiceRefused increment) :
    ((s.sysNice increment).2.task s.rq.curr).realNice =
      if s.current.OverdueTask then
        if 0 ≤ increment then s.current.realNice else clampNice (19 + clampIncrement increment)
      else clampNice (s.current.realNice + clampIncrement increment) := by
  obtain ⟨hge, hle⟩ := clampNice_range (s.current.taskNice + clampIncrement increment)
  rw [(sysNice_of_not_refused hmay).2, TaskSched.realNice_renice h hge hle]
  by_cases hover : s.current.OverdueTask
  · have hshown : s.current.taskNice = 19 := by
      rw [TaskSched.taskNice, (h.overdue_prio hover.2).2]
      decide
    have h19 : clampNice (19 + clampIncrement increment) = 19 ↔ 0 ≤ increment := by
      unfold clampNice clampIncrement
      omega
    rw [if_pos hover, hshown]
    by_cases hpos : 0 ≤ increment
    · rw [if_pos ⟨h19.mpr hpos, hover⟩, if_pos hpos]
    · rw [if_neg fun hc => hpos (h19.mp hc.1), if_neg hpos]
  · have hshown : s.current.realNice = s.current.taskNice :=
      TaskSched.realNice_of_not_overdue hover
    rw [if_neg fun hc => hover hc.2, if_neg hover, hshown]

/-- When starting from 19 makes no difference. -/
theorem clampNice_overdue_iff {m : ℤ} (hge : -20 ≤ m) (hle : m ≤ 19) :
    (if 0 ≤ increment then m else clampNice (19 + clampIncrement increment)) =
        clampNice (m + clampIncrement increment) ↔
      m = 19 ∨ increment = 0 ∨ increment ≤ -39 := by
  simp only [clampNice, clampIncrement, max_def, min_def]
  split_ifs <;> omega

/-- **`sys_nice` is relative to the real nice value** unless the caller is overdue and the value
that it shows makes a difference. In no case does a positive increment lower the real value. -/
theorem niceIsRelative_iff (h : LifeInv s.current.toTaskSched)
    (hnice : -20 ≤ s.current.realNice ∧ s.current.realNice ≤ 19) :
    (NiceIsRelative increment s ↔ s.NiceRefused increment ∨ ¬s.current.OverdueTask ∨
      s.current.realNice = 19 ∨ increment = 0 ∨ increment ≤ -39) ∧
    (0 ≤ increment → s.current.realNice ≤ ((s.sysNice increment).2.task s.rq.curr).realNice) := by
  by_cases hrefused : s.NiceRefused increment
  · -- nothing changes
    have hcall := sysNice_of_refused hrefused
    have hpos : ¬0 ≤ increment := not_le.mpr hrefused.1
    refine ⟨⟨fun _ => .inl hrefused, fun _ => ⟨fun hr => ?_, fun _ => ?_⟩⟩, fun hc => absurd hc hpos⟩
    · rw [hcall] at hr
      have hzero : -ePERM = 0 := hr
      exact absurd hzero (by decide)
    · rw [hcall]
  have hret := (sysNice_of_not_refused hrefused).1
  have hnew := sysNice_realNice h hrefused
  have hrelative : NiceIsRelative increment s ↔
      ((s.sysNice increment).2.task s.rq.curr).realNice =
        clampNice (s.current.realNice + clampIncrement increment) := by
    refine ⟨fun hc => hc.accepted hret, fun hc => ⟨fun _ => hc, fun hr => ?_⟩⟩
    rw [hret] at hr
    exact absurd hr (by decide)
  rw [hrelative, hnew]
  by_cases hover : s.current.OverdueTask
  · rw [if_pos hover, clampNice_overdue_iff hnice.1 hnice.2]
    refine ⟨⟨fun hc => .inr (.inr hc), fun hc => ?_⟩, fun hpos => by rw [if_pos hpos]⟩
    rcases hc with hc | hc | hc
    · exact absurd hc hrefused
    · exact absurd hover hc
    · exact hc
  · rw [if_neg hover]
    refine ⟨⟨fun _ => .inr (.inl hover), fun _ => rfl⟩, fun hpos => ?_⟩
    unfold clampNice clampIncrement
    omega

/-- An overdue task at nice 0. -/
def overdueAtZero : Sys :=
  let task : Task :=
    { timeSlice := 5, pid := 1, policy := .short, requestedTime := 10, iAmOverdue := 1,
      iWasShort := 1, prio := 139, staticPrio := 139, overdueStaticPrio := 120,
      array := some .shortArrays1 }
  ofList [task] 1

/-- It asks for an increment of 5, gets the answer 0, and stays at nice 0. -/
theorem nice_ignored_when_overdue :
    LifeInv overdueAtZero.current.toTaskSched ∧ overdueAtZero.current.realNice = 0 ∧
      (overdueAtZero.sysNice 5).1 = 0 ∧
      ((overdueAtZero.sysNice 5).2.task 1).realNice = 0 ∧ ¬NiceIsRelative 5 overdueAtZero := by
  have hvalue : ((overdueAtZero.sysNice 5).2.task 1).realNice = 0 := by decide +kernel
  have hret : (overdueAtZero.sysNice 5).1 = 0 := by decide +kernel
  have hreal : overdueAtZero.current.realNice = 0 := by decide +kernel
  have hparked : UserRange overdueAtZero.current.overdueStaticPrio := by decide +kernel
  have hstatic : UserRange overdueAtZero.current.staticPrio := by decide +kernel
  refine ⟨⟨.inr rfl, fun _ => rfl, fun _ => ⟨rfl, rfl⟩, fun _ => hparked, ⟨fun _ => rfl, fun _ => ?_⟩,
    fun _ => rfl, hstatic⟩, hreal, hret, hvalue, fun hc => ?_⟩
  · decide +kernel
  · have hclaimed : ((overdueAtZero.sysNice 5).2.task 1).realNice =
        clampNice (overdueAtZero.current.realNice + clampIncrement 5) := hc.accepted hret
    rw [hvalue, hreal] at hclaimed
    exact absurd hclaimed (by decide)

/-- A privileged OTHER task at nice 0 asks for an increment of -5. -/
theorem niceIsRelative_minus_five :
    let s := ofList [{ timeSlice := 15, pid := 1, capSysNice := true, array := some .arrays0 }] 1
    (s.sysNice (-5)).1 = 0 ∧ NiceIsRelative (-5) s := by
  intro s
  have hstatic : UserRange s.current.staticPrio := by decide +kernel
  have hlife : LifeInv s.current.toTaskSched :=
    ⟨.inl rfl, nofun, nofun, nofun, ⟨fun hc => absurd rfl hc, nofun⟩, nofun, hstatic⟩
  refine ⟨by decide +kernel, ?_⟩
  exact (niceIsRelative_iff hlife (by decide +kernel)).1.mpr (.inr (.inl (by decide +kernel)))

end Sys
end ShortSched
