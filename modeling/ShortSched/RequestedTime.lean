import ShortSched.OfTasks

/-!
# The requested times that `setscheduler` accepts

A request in milliseconds is multiplied by `HZ` in an `int` and divided with truncation. For a
request between 0 and 3000 the product does not overflow, and the two range checks are exact.
For a negative request it may wrap around to any number of jiffies.
-/

namespace ShortSched

variable [Param]

/-! ## Jiffies -/

/-- `CHANGE_MS_TO_JIFFIS` in integers. -/
theorem changeMsToJiffis_toInt (ms : Int32) :
    (changeMsToJiffis ms).toInt = ((ms.toInt * hz).bmod (2 ^ 32)).tdiv 1000 := by
  have hhz : (Int32.ofNat hz).toInt = hz := Int32.toInt_ofNat_of_lt (by have := hz_le; omega)
  have hne : (1000 : Int32) ≠ -1 := by decide
  have hthousand : (1000 : Int32).toInt = 1000 := by decide
  rw [changeMsToJiffis, Int32.toInt_div_of_ne_right _ _ hne, Int32.toInt_mul, hhz, hthousand]

/-- No overflow for a request that is not negative. -/
theorem changeMsToJiffis_of_nonneg {ms : Int32} (h0 : 0 ≤ ms.toInt) (hle : ms.toInt ≤ 3000) :
    (changeMsToJiffis ms).toInt = ms.toInt * hz / 1000 ∧ 0 ≤ ms.toInt * hz := by
  have hhz : (hz : ℤ) ≤ 1000 := by exact_mod_cast hz_le
  have hnonneg : 0 ≤ ms.toInt * hz := Int.mul_nonneg h0 (by omega)
  have hub : ms.toInt * hz ≤ 3000 * 1000 := Int.mul_le_mul hle hhz (by omega) (by omega)
  have hbmod : (ms.toInt * hz).bmod (2 ^ 32) = ms.toInt * hz := by
    rw [Int.bmod_eq_emod]
    split <;> omega
  rw [changeMsToJiffis_toInt, hbmod, Int.tdiv_eq_ediv_of_nonneg hnonneg]
  exact ⟨rfl, hnonneg⟩

theorem maxRequestedTime_toInt : maxRequestedTime.toInt = 3 * hz := by
  have hms : (3000 : Int32).toInt = 3000 := by decide
  have hpos : 0 ≤ (3000 : Int32).toInt := by decide
  obtain ⟨heq, -⟩ := changeMsToJiffis_of_nonneg hpos hms.le
  rw [maxRequestedTime, heq, hms]
  omega

theorem changeMsToJiffis_le_max {ms : Int32} (h0 : 0 ≤ ms.toInt) (hle : ms.toInt ≤ 3000) :
    0 ≤ (changeMsToJiffis ms).toInt ∧ (changeMsToJiffis ms).toInt ≤ maxRequestedTime.toInt := by
  obtain ⟨heq, hnonneg⟩ := changeMsToJiffis_of_nonneg h0 hle
  have hub : ms.toInt * hz ≤ 3000 * hz := Int.mul_le_mul_of_nonneg_right hle (by omega)
  rw [heq, maxRequestedTime_toInt]
  omega

omit [Param] in
/-- The conversion of an `int` to `unsigned int`. -/
theorem toNat_toUInt32 (x : Int32) : (x.toUInt32.toNat : ℤ) = x.toInt % 2 ^ 32 := by
  have hbmod : x.toInt = (x.toUInt32.toNat : ℤ).bmod (2 ^ 32) := BitVec.toInt_eq_toNat_bmod _
  have hlt : x.toUInt32.toNat < 2 ^ 32 := x.toUInt32.toNat_lt
  rw [hbmod, Int.bmod_eq_emod]
  split <;> omega

omit [Param] in
/-- The slice of an overdue task. -/
theorem toNat_double {x : Int32} {r : ℕ} (hx : x.toInt = r) : (2 * x).toUInt32.toNat = 2 * r := by
  have hnat := toNat_toUInt32 (2 * x)
  have hlt := x.toInt_lt
  have htwo : (2 : Int32).toInt = 2 := by decide
  rw [Int32.toInt_mul, htwo, hx, Int.bmod_eq_emod] at hnat
  split at hnat <;> omega

omit [Param] in
theorem toNat_ofInt {x : ℤ} (h0 : 0 ≤ x) (hlt : x < 2 ^ 32) : ((UInt32.ofInt x).toNat : ℤ) = x := by
  rw [UInt32.ofInt, Int.emod_eq_of_lt h0 hlt, UInt32.toNat_ofNat_of_lt']
  · exact Int.toNat_of_nonneg h0
  · exact (Int.toNat_lt h0).mpr hlt

/-! ## The bounds of a SHORT task -/

/-- The requested time is in range and the time slice is a part of the budget. -/
structure InBudget (p : TaskSched) : Prop where
  requested_ge : minRequestedTime ≤ p.requestedTime
  requested_le : p.requestedTime ≤ maxRequestedTime
  slice_ge : 1 ≤ p.timeSlice.toNat
  slice_le : (p.timeSlice.toNat : ℤ) ≤ (if p.OverdueTask then 2 else 1) * p.requestedTime.toInt

/-- A number of jiffies between `MIN_REQUESTED_TIME` and `MAX_REQUESTED_TIME`. -/
abbrev InRange (jiffis : Int32) : Prop := minRequestedTime ≤ jiffis ∧ jiffis ≤ maxRequestedTime

/-- A new SHORT task has its whole request as its time slice. -/
theorem inBudget_makeShort {t : Task} {lp : SchedParam}
    (hrange : InRange (changeMsToJiffis lp.requestedTime)) :
    InBudget (t.makeShort lp).toTaskSched where
  requested_ge := hrange.1
  requested_le := hrange.2
  slice_ge := by
    have hge := Int32.le_iff_toInt_le.mp hrange.1
    have hnat := toNat_toUInt32 (changeMsToJiffis lp.requestedTime)
    have hlt := (changeMsToJiffis lp.requestedTime).toInt_lt
    have hmin : minRequestedTime.toInt = 1 := by decide
    show 1 ≤ (changeMsToJiffis lp.requestedTime).toUInt32.toNat
    omega
  slice_le := by
    have hge := Int32.le_iff_toInt_le.mp hrange.1
    have hnat := toNat_toUInt32 (changeMsToJiffis lp.requestedTime)
    have hmin : minRequestedTime.toInt = 1 := by decide
    show ((changeMsToJiffis lp.requestedTime).toUInt32.toNat : ℤ) ≤
      _ * (changeMsToJiffis lp.requestedTime).toInt
    split <;> omega

/-- The check of a request by a SHORT task is exact as long as the request does not wrap: the
task keeps what it has used of its old request, and has something left of the new one. -/
theorem adjustShort_slice {t : Task} {lp : SchedParam} (hold : 0 ≤ t.requestedTime.toInt)
    (hdouble : (t.timeSlice.toNat : ℤ) ≤ 2 * t.requestedTime.toInt)
    (hnew : 0 ≤ (changeMsToJiffis lp.requestedTime).toInt)
    (hgt : (changeMsToJiffis lp.requestedTime).toUInt32 > t.requestedTime.toUInt32 - t.timeSlice) :
    (t.timeSlice.toNat : ℤ) ≤ t.requestedTime.toInt ∧ 1 ≤ (t.adjustShort lp).timeSlice.toNat ∧
      ((t.adjustShort lp).timeSlice.toNat : ℤ) =
        (changeMsToJiffis lp.requestedTime).toInt - t.requestedTime.toInt + t.timeSlice.toNat := by
  have hadjust : (t.adjustShort lp).timeSlice =
      t.timeSlice + (changeMsToJiffis lp.requestedTime - t.requestedTime).toUInt32 := rfl
  generalize changeMsToJiffis lp.requestedTime = jiffis at hadjust hnew hgt ⊢
  have hlt := jiffis.toInt_lt
  have hlt_old := t.requestedTime.toInt_lt
  have hnat := toNat_toUInt32 jiffis
  have hnat_old := toNat_toUInt32 t.requestedTime
  -- what the unsigned comparison says about the numbers
  have hgt' : (t.requestedTime.toUInt32 - t.timeSlice).toNat < jiffis.toUInt32.toNat := hgt
  rw [UInt32.toNat_sub] at hgt'
  rw [hadjust, UInt32.toNat_add, Int32.toUInt32_sub, UInt32.toNat_sub]
  omega

theorem inBudget_adjustShort {t : Task} {lp : SchedParam} (h : InBudget t.toTaskSched)
    (hgt : (changeMsToJiffis lp.requestedTime).toUInt32 > t.requestedTime.toUInt32 - t.timeSlice)
    (hrange : InRange (changeMsToJiffis lp.requestedTime)) :
    InBudget (t.adjustShort lp).toTaskSched := by
  have hge := Int32.le_iff_toInt_le.mp hrange.1
  have hmin : minRequestedTime.toInt = 1 := by decide
  have hdouble : (t.timeSlice.toNat : ℤ) ≤ 2 * t.requestedTime.toInt := by
    have hle := h.slice_le
    split at hle <;> omega
  obtain ⟨hle, hpos, heq⟩ := adjustShort_slice (by omega) hdouble (by omega) hgt
  refine ⟨hrange.1, hrange.2, hpos, heq.trans_le ?_⟩
  show _ ≤ _ * (changeMsToJiffis lp.requestedTime).toInt
  split <;> omega

/-! ## What `setscheduler` accepts -/

omit [Param] in
theorem Policy.ofInt?_eq_short {policy : ℤ} :
    Policy.ofInt? policy = some .short ↔ policy = 5 := by
  unfold Policy.ofInt?
  split
  · simp_all
  split
  · simp_all
  split
  · simp_all
  split <;> simp_all

namespace Sys

variable {s s' : Sys} {p : TaskId} {pid policy : ℤ} {param : UserParam} {lp : SchedParam}

/-- A negative request that passes the checks and is out of range: for an OTHER task its
product with `HZ` has wrapped around, for a SHORT task it may as well be a negative number of
jiffies, which the unsigned comparison takes for a large one. -/
def WrapsAround (s : Sys) (pid policy : ℤ) (param : UserParam) : Prop :=
  ∃ p lp, Target s pid param p lp ∧ s.MayShorten p ∧ lp.requestedTime < 0 ∧
    ¬InRange (changeMsToJiffis lp.requestedTime) ∧
    ((s.task p).policy = .other ∧ policy = 5 ∧
        minRequestedTime ≤ changeMsToJiffis lp.requestedTime ∨
      (s.task p).policy = .short ∧ (policy < 0 ∨ policy = 5) ∧
        (s.task p).requestedTime.toUInt32 - (s.task p).timeSlice <
          (changeMsToJiffis lp.requestedTime).toUInt32)

/-- The scheduling fields of a task that was made SHORT. -/
theorem madeShort_sched (p : TaskId) (lp : SchedParam) (s : Sys) :
    ∃ prio, (((s.requeued p (Task.makeShort lp)).setTskNeedResched s.rq.curr).task p).toTaskSched
      = { ((s.task p).makeShort lp).toTaskSched with prio := prio } := by
  rw [(SameTasks.setTskNeedResched _ _).sched, requeued_sched (fun _ => rfl), if_pos rfl]
  split
  · exact ⟨_, rfl⟩
  · rw [Task.woken_sched]
    exact ⟨_, rfl⟩

theorem adjusted_sched (p : TaskId) (lp : SchedParam) (s : Sys) :
    (((s.modify p (Task.adjustShort lp)).setTskNeedResched s.rq.curr).task p).toTaskSched =
      ((s.task p).adjustShort lp).toTaskSched := by
  rw [(SameTasks.setTskNeedResched _ _).sched, modify_task, Function.update_self]

/-- A request that is not negative and passes a check is in range. -/
theorem inRange_of_nonneg (h0 : 0 ≤ lp.requestedTime) (hle : lp.requestedTime ≤ 3000)
    (hpos : 0 < (changeMsToJiffis lp.requestedTime).toUInt32.toNat) :
    InRange (changeMsToJiffis lp.requestedTime) := by
  have hthree : (3000 : Int32).toInt = 3000 := by decide
  have hzero : (0 : Int32).toInt = 0 := by decide
  have hmin : minRequestedTime.toInt = 1 := by decide
  rw [Int32.le_iff_toInt_le, hthree] at hle
  rw [Int32.le_iff_toInt_le, hzero] at h0
  obtain ⟨hnonneg, hmax⟩ := changeMsToJiffis_le_max h0 hle
  have hnat := toNat_toUInt32 (changeMsToJiffis lp.requestedTime)
  rw [InRange, Int32.le_iff_toInt_le, Int32.le_iff_toInt_le]
  exact ⟨by omega, hmax⟩

/-- **Accepted requested times are in range**, but for negative requests that wrap around. -/
theorem accepted_in_budget_iff
    (h : ∀ t, (s.task t).policy = .short → InBudget (s.task t).toTaskSched) :
    (∀ p s', s.findProcessByPid pid = some p → s.setscheduler pid policy param = some (0, s') →
        (s'.task p).policy = .short → InBudget (s'.task p).toTaskSched) ↔
      ¬s.WrapsAround pid policy param := by
  constructor
  · rintro hall ⟨p, lp, target, hmay, hneg, hrange, hcase⟩
    have hle : lp.requestedTime ≤ 3000 :=
      Int32.le_trans (Int32.le_of_lt hneg) (by decide)
    rcases hcase with ⟨hother, rfl, hge⟩ | ⟨hshort, hpolicy, hgt⟩
    · obtain ⟨prio, hsched⟩ := madeShort_sched p lp s
      have hbudget := hall p _ target.found (setscheduler_of_make target hother rfl hle hge hmay)
        (by rw [hsched]; rfl)
      rw [hsched] at hbudget
      exact hrange ⟨hbudget.requested_ge, hbudget.requested_le⟩
    · rw [← Policy.ofInt?_eq_short] at hpolicy
      have hbudget := hall p _ target.found
        (setscheduler_of_adjust target hshort hpolicy hle hgt hmay)
        (by rw [adjusted_sched]; exact hshort)
      rw [adjusted_sched] at hbudget
      exact hrange ⟨hbudget.requested_ge, hbudget.requested_le⟩
  · intro hno p s' hfound hcall hshort'
    cases SetschedCase.of_eq_some hcall with
    | refused hr _ => exact absurd hr (lt_irrefl 0)
    | @adjusted q lp target hshort hpolicy hle hgt hmay =>
      obtain rfl : p = q := Option.some.inj (hfound.symm.trans target.found)
      rw [adjusted_sched]
      apply inBudget_adjustShort (h p hshort) hgt
      by_cases hneg : lp.requestedTime < 0
      · by_contra hrange
        refine hno ⟨p, lp, target, hmay, hneg, hrange, .inr ⟨hshort, ?_, hgt⟩⟩
        rwa [← Policy.ofInt?_eq_short]
      · have hpos := UInt32.lt_iff_toNat_lt.mp hgt
        exact inRange_of_nonneg (Int32.not_lt.mp hneg) hle (Nat.zero_lt_of_lt hpos)
    | @madeShort q lp target hother hpolicy hle hge hmay =>
      obtain rfl : p = q := Option.some.inj (hfound.symm.trans target.found)
      obtain ⟨prio, hsched⟩ := madeShort_sched p lp s
      rw [hsched]
      have hrange : InRange (changeMsToJiffis lp.requestedTime) := by
        by_cases hneg : lp.requestedTime < 0
        · by_contra hrange
          refine hno ⟨p, lp, target, hmay, hneg, hrange, .inl ⟨hother, ?_, hge⟩⟩
          rw [← Policy.ofInt?_eq_short]
          exact hpolicy.2
        · apply inRange_of_nonneg (Int32.not_lt.mp hneg) hle
          have hge' := Int32.le_iff_toInt_le.mp hge
          have hmin : minRequestedTime.toInt = 1 := by decide
          have hnat := toNat_toUInt32 (changeMsToJiffis lp.requestedTime)
          have hlt := (changeMsToJiffis lp.requestedTime).toInt_lt
          omega
      have hbudget : InBudget ((s.task p).makeShort lp).toTaskSched := inBudget_makeShort hrange
      exact ⟨hbudget.1, hbudget.2, hbudget.3, hbudget.4⟩
    | @changed q lp policy' s₁ target hnot hnew _ _ hsame =>
      -- the target has the policy that it was given
      obtain rfl : p = q := Option.some.inj (hfound.symm.trans target.found)
      rw [requeued_sched (fun _ => rfl), if_pos rfl] at hshort'
      split at hshort'
      · exact absurd hshort' hnew
      · rw [Task.woken_sched] at hshort'
        exact absurd hshort' hnew

omit [Param] in
/-- A request of about minus 21475 seconds buys the target 2147483 jiffies. -/
theorem accepted_out_of_budget :
    (∀ t, (privilegedTask.task t).policy = .short →
      @InBudget hz100 (privilegedTask.task t).toTaskSched) ∧
    ∃ s', @setscheduler hz100 1 5 (.valid ⟨0, -21474837⟩) privilegedTask = some (0, s') ∧
      (s'.task 1).policy = .short ∧ (s'.task 1).requestedTime = 2147483 ∧
      ¬@InBudget hz100 (s'.task 1).toTaskSched := by
  refine ⟨fun t ht => absurd ht (policy_privilegedTask t).1, ?_⟩
  have hcall : ((@setscheduler hz100 1 5 (.valid ⟨0, -21474837⟩) privilegedTask).map fun x =>
      (x.1, (x.2.task 1).policy, (x.2.task 1).requestedTime)) = some (0, .short, 2147483) := by
    decide +kernel
  obtain ⟨⟨r, s'⟩, hs', hval⟩ := Option.map_eq_some_iff.mp hcall
  obtain ⟨rfl, hpolicy, htime⟩ : r = 0 ∧ _ ∧ _ := by simpa using hval
  refine ⟨s', hs', hpolicy, htime, fun hbudget => ?_⟩
  have hle := @InBudget.requested_le hz100 _ hbudget
  rw [htime] at hle
  exact absurd hle (by decide)

omit [Param] in
/-- A second of running time is accepted and in range. -/
theorem accepted_in_budget_iff_second : ∃ s',
    @setscheduler hz100 1 5 (.valid ⟨0, 1000⟩) privilegedTask = some (0, s') ∧
      (s'.task 1).policy = .short ∧ @InBudget hz100 (s'.task 1).toTaskSched := by
  have hcall : ((@setscheduler hz100 1 5 (.valid ⟨0, 1000⟩) privilegedTask).map fun x =>
      (x.1, (x.2.task 1).policy)) = some (0, .short) := by
    decide +kernel
  obtain ⟨⟨r, s'⟩, hs', hval⟩ := Option.map_eq_some_iff.mp hcall
  obtain ⟨rfl, hpolicy⟩ : r = 0 ∧ _ := by simpa using hval
  refine ⟨s', hs', hpolicy, ?_⟩
  refine (@accepted_in_budget_iff hz100 privilegedTask 1 5 (.valid ⟨0, 1000⟩)
    fun t ht => absurd ht (policy_privilegedTask t).1).mpr ?_ 1 s' rfl hs' hpolicy
  rintro ⟨p, lp, target, -, hneg, -⟩
  have hlp : lp = ⟨0, 1000⟩ := (UserParam.valid.inj target.param_eq).symm
  rw [hlp] at hneg
  exact absurd hneg (by decide)

end Sys
end ShortSched
