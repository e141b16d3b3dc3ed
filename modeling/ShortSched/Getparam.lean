import ShortSched.LifeCycle
import ShortSched.RequestedTime
import ShortSched.TaskList

/-!
# What `sys_sched_getparam` reports

The call copies a whole `struct sched_param` to the caller. `requested_time` is filled for a SHORT
task that is not overdue and for no other task; it is the requested time of the task, converted to
milliseconds and rounded down.
-/

namespace ShortSched

open General

variable [Param]

/-! ## Milliseconds -/

/-- No overflow for a time in range. -/
theorem changeJiffisToMs_of_nonneg {jifs : Int32} (h0 : 0 ≤ jifs.toInt) (hle : jifs.toInt ≤ 3000) :
    (changeJiffisToMs jifs).toInt = jifs.toInt * 1000 / hz := by
  have hhz : (Int32.ofNat hz).toInt = hz := Int32.toInt_ofNat_of_lt (by have := hz_le; omega)
  have hne : Int32.ofNat hz ≠ -1 := by
    intro hc
    have hneg : (Int32.ofNat hz).toInt = -1 := by rw [hc]; decide
    omega
  have hthousand : (1000 : Int32).toInt = 1000 := by decide
  have hbmod : (jifs.toInt * 1000).bmod (2 ^ 32) = jifs.toInt * 1000 := by
    rw [Int.bmod_eq_emod]
    split <;> omega
  rw [changeJiffisToMs, Int32.toInt_div_of_ne_right _ _ hne, Int32.toInt_mul, hhz, hthousand, hbmod,
    Int.tdiv_eq_ediv_of_nonneg (by omega)]

omit [Param] in
/-- Scaling down by `a / b` and back is exact when nothing is rounded. -/
theorem ediv_mul_ediv_eq_iff {j a b : ℤ} (ha : 0 < a) (hb : 0 < b) :
    j * a / b * b / a = j ↔ b ∣ j * a := by
  constructor
  · intro h
    have hle : j * a / b * b ≤ j * a := Int.ediv_mul_le _ hb.ne'
    have hge : j * a ≤ j * a / b * b := by
      rw [← Int.le_ediv_iff_mul_le ha, h]
    exact Dvd.intro_left _ (le_antisymm hle hge)
  · intro h
    rw [Int.ediv_mul_cancel h, Int.mul_ediv_cancel _ ha.ne']

/-- What is read back of a request is at most the request, and it gives the same number of jiffies
iff nothing is rounded. -/
theorem changeJiffisToMs_spec {ms : Int32} (h0 : 0 ≤ ms.toInt) (hle : ms.toInt ≤ 3000) :
    0 ≤ (changeJiffisToMs (changeMsToJiffis ms)).toInt ∧
      (changeJiffisToMs (changeMsToJiffis ms)).toInt ≤ ms.toInt ∧
      (changeMsToJiffis (changeJiffisToMs (changeMsToJiffis ms)) = changeMsToJiffis ms ↔
        (hz : ℤ) ∣ (changeMsToJiffis ms).toInt * 1000) := by
  have hhz : (0 : ℤ) < hz := by exact_mod_cast lt_of_lt_of_le (by decide) hz_ge
  obtain ⟨hjiffies, hnonneg⟩ := changeMsToJiffis_of_nonneg h0 hle
  have hmax := changeMsToJiffis_le_max h0 hle
  have hlimit : (hz : ℤ) ≤ 1000 := by exact_mod_cast hz_le
  rw [maxRequestedTime_toInt] at hmax
  have hback := changeJiffisToMs_of_nonneg hmax.1 (hmax.2.trans (by omega))
  have hback0 : 0 ≤ (changeJiffisToMs (changeMsToJiffis ms)).toInt := by
    rw [hback]
    exact Int.ediv_nonneg (by omega) hhz.le
  have hbackle : (changeJiffisToMs (changeMsToJiffis ms)).toInt ≤ ms.toInt := by
    rw [hback]
    apply Int.ediv_le_of_le_mul hhz
    omega
  refine ⟨hback0, hbackle, ?_⟩
  rw [← Int32.toInt_inj, (changeMsToJiffis_of_nonneg hback0 (hbackle.trans hle)).1, hback]
  exact ediv_mul_ediv_eq_iff (by decide) hhz

namespace Sys

variable {s s' : Sys} {p t : TaskId} {pid policy : ℤ}

/-! ## The structure that is copied out -/

/-- The call reaches a task and a buffer that it can fill. -/
structure Reads (s : Sys) (pid : ℤ) (param : UserBuffer) (p : TaskId) : Prop where
  param_eq : param = .valid
  pid_nonneg : 0 ≤ pid
  found : s.findProcessByPid pid = some p

theorem getparam_of_reads {param : UserBuffer} (h : s.Reads pid param p) (lp : SchedParam) :
    s.sysSchedGetparam pid param lp = (0, some
      { schedPriority := Int32.ofInt (s.task p).rtPriority
        requestedTime := if (s.task p).ShortTask then changeJiffisToMs (s.task p).requestedTime
          else lp.requestedTime }) := by
  obtain ⟨rfl, hpid, hfound⟩ := h
  have harg : ¬(UserBuffer.valid = .null ∨ pid < 0) := by
    rintro (hnull | hneg)
    · cases hnull
    · omega
  rw [sysSchedGetparam, if_neg harg, hfound]
  dsimp only
  rw [if_neg (by decide)]
  split <;> rfl

/-- A call that copies nothing does not depend on its local variable. -/
theorem getparam_of_not_reads {param : UserBuffer} (h : ∀ p, ¬s.Reads pid param p) :
    ∃ e, ∀ lp, s.sysSchedGetparam pid param lp = (e, none) := by
  unfold sysSchedGetparam
  split
  · exact ⟨_, fun _ => rfl⟩
  next harg =>
  cases hfound : s.findProcessByPid pid with
  | none => exact ⟨_, fun _ => rfl⟩
  | some p =>
    rw [not_or, not_lt] at harg
    cases param with
    | null => exact absurd rfl harg.1
    | fault => exact ⟨_, fun _ => rfl⟩
    | valid => exact absurd ⟨rfl, harg.2, hfound⟩ (h p)

/-- What is copied out does not depend on what the local variable held. -/
def NoLeak (s : Sys) (pid : ℤ) (param : UserBuffer) : Prop :=
  ∀ lp lp', s.sysSchedGetparam pid param lp = s.sysSchedGetparam pid param lp'

/-- The requested time of a task with policy SHORT is reported. -/
def ReportsRequest (s : Sys) (pid : ℤ) (param : UserBuffer) : Prop :=
  ∀ p, s.Reads pid param p → (s.task p).policy = .short → ∀ lp, ∃ out,
    s.sysSchedGetparam pid param lp = (0, some out) ∧
      out.requestedTime = changeJiffisToMs (s.task p).requestedTime

/-- **`sys_sched_getparam` leaks** the contents of its stack for every task but a SHORT task that is
not overdue. -/
theorem getparam_no_leak_iff (s : Sys) (pid : ℤ) (param : UserBuffer) :
    s.NoLeak pid param ∧ s.ReportsRequest pid param ↔
      ∀ p, s.Reads pid param p → (s.task p).ShortTask := by
  constructor
  · rintro ⟨hleak, -⟩ p hreads
    by_contra hnot
    have hsame := hleak ⟨0, 0⟩ ⟨0, 1⟩
    rw [getparam_of_reads hreads, getparam_of_reads hreads, if_neg hnot, if_neg hnot] at hsame
    have hzero : (0 : Int32) = 1 :=
      congrArg SchedParam.requestedTime (Option.some.inj (congrArg Prod.snd hsame))
    exact absurd hzero (by decide)
  · intro hshort
    constructor
    · intro lp lp'
      by_cases hreads : ∃ p, s.Reads pid param p
      · obtain ⟨p, hreads⟩ := hreads
        rw [getparam_of_reads hreads, getparam_of_reads hreads, if_pos (hshort p hreads),
          if_pos (hshort p hreads)]
      · obtain ⟨e, he⟩ := getparam_of_not_reads (not_exists.mp hreads)
        rw [he, he]
    · intro p hreads _ lp
      refine ⟨_, getparam_of_reads hreads lp, ?_⟩
      exact if_pos (hshort p hreads)

omit [Param] in
/-- Of an OTHER task the local variable itself is reported. -/
theorem getparam_leaks :
    @sysSchedGetparam hz100 1 .valid ⟨0, 0⟩ privilegedTask = (0, some ⟨0, 0⟩) ∧
      @sysSchedGetparam hz100 1 .valid ⟨0, 1⟩ privilegedTask = (0, some ⟨0, 1⟩) ∧
      ¬@NoLeak hz100 privilegedTask 1 .valid := by
  have hzero : @sysSchedGetparam hz100 1 .valid ⟨0, 0⟩ privilegedTask = (0, some ⟨0, 0⟩) := by
    decide +kernel
  have hone : @sysSchedGetparam hz100 1 .valid ⟨0, 1⟩ privilegedTask = (0, some ⟨0, 1⟩) := by
    decide +kernel
  refine ⟨hzero, hone, fun hleak => ?_⟩
  have hsame := hleak ⟨0, 0⟩ ⟨0, 1⟩
  rw [hzero, hone] at hsame
  exact absurd hsame (by decide)

/-! ## Writing back what was read -/

/-- What an accepted request of an OTHER task has done. -/
theorem madeShort_of_accepted {lp : SchedParam} (target : Target s pid (.valid lp) p lp)
    (hother : (s.task p).policy = .other)
    (hcall : s.sysSchedSetscheduler pid 5 (.valid lp) = some (0, s')) :
    s.MayShorten p ∧ minRequestedTime ≤ changeMsToJiffis lp.requestedTime ∧
      s' = (s.requeued p (Task.makeShort lp)).setTskNeedResched s.rq.curr := by
  have hrequest : s.requestedPolicy p 5 = some .short := rfl
  rw [sysSchedSetscheduler, setscheduler_of_other_short target hother hrequest] at hcall
  split at hcall
  · exact absurd hcall (error_ne_zero (by decide))
  next hreq =>
  split at hcall
  · next hmay =>
    rw [not_or, Int32.not_lt, Int32.not_lt] at hreq
    exact ⟨hmay, hreq.2, (congrArg Prod.snd (Option.some.inj hcall)).symm⟩
  · exact absurd hcall (error_ne_zero (by decide))

/-- A request changes `sleep_avg` at most of what is recorded about a task. -/
theorem madeShort_info (p t : TaskId) (lp : SchedParam) (s : Sys) : ∃ sleepAvg,
    ((s.requeued p (Task.makeShort lp)).task t).toTaskInfo =
      { (s.task t).toTaskInfo with sleepAvg := sleepAvg } := by
  rw [requeued_info fun _ => rfl]
  split
  · next ht =>
    subst ht
    split
    · exact ⟨_, rfl⟩
    · rw [Task.woken_info]
      exact ⟨_, rfl⟩
  · exact ⟨_, rfl⟩

omit [Param] in
/-- A pid finds the same process while processes keep their pids. -/
theorem findProcessByPid_congr (htasklist : s'.tasklist = s.tasklist)
    (hcurr : s'.rq.curr = s.rq.curr) (hpid : ∀ t, (s'.task t).pid = (s.task t).pid) (pid : ℤ) :
    s'.findProcessByPid pid = s.findProcessByPid pid := by
  simp only [findProcessByPid, findTaskByPid, htasklist, hcurr, hpid]

/-- The target is found again after a request. -/
theorem Target.madeShort {lp lp' : SchedParam} (target : Target s pid (.valid lp) p lp) :
    Target ((s.requeued p (Task.makeShort lp)).setTskNeedResched s.rq.curr) pid (.valid lp') p
      lp' := by
  have hpid : ∀ t, (((s.requeued p (Task.makeShort lp)).setTskNeedResched s.rq.curr).task t).pid =
      (s.task t).pid := by
    intro t
    obtain ⟨_, hinfo⟩ := madeShort_info p t lp s
    rw [setTskNeedResched, modify_proj (fun t => t.pid) rfl, hinfo]
  have hlist : ((s.requeued p (Task.makeShort lp)).setTskNeedResched s.rq.curr).tasklist =
      s.tasklist := (sameLists_requeued p (Task.makeShort lp) s).tasklist
  have hcurr : ((s.requeued p (Task.makeShort lp)).setTskNeedResched s.rq.curr).rq.curr =
      s.rq.curr := (samePtrs_requeued p (Task.makeShort lp) s).curr
  exact ⟨rfl, target.pid_nonneg, (findProcessByPid_congr hlist hcurr hpid pid).trans target.found⟩

/-- The caller that made the target SHORT may ask for another time. -/
theorem MayShorten.madeShort {lp : SchedParam} (h : s.MayShorten p) :
    ((s.requeued p (Task.makeShort lp)).setTskNeedResched s.rq.curr).MayShorten p := by
  have heuid : ∀ t, (((s.requeued p (Task.makeShort lp)).setTskNeedResched s.rq.curr).task t).euid =
      (s.task t).euid := by
    intro t
    obtain ⟨_, hinfo⟩ := madeShort_info p t lp s
    rw [setTskNeedResched, modify_proj (fun t => t.euid) rfl, hinfo]
  rw [MayShorten, current, heuid, heuid, setTskNeedResched, modify_rq,
    (samePtrs_requeued p (Task.makeShort lp) s).curr]
  exact h

/-- The task reports a requested time that can be written back: it is at most the request, stands
for the same number of jiffies, and `sys_sched_setparam` accepts it and changes no time. -/
def WritesBack (s : Sys) (pid : ℤ) (p : TaskId) (request : Int32) : Prop :=
  ∀ lp, ∃ out, s.sysSchedGetparam pid .valid lp = (0, some out) ∧
    out.requestedTime ≤ request ∧ changeMsToJiffis out.requestedTime = (s.task p).requestedTime ∧
    ∃ s', s.sysSchedSetparam pid (.valid out) = some (0, s') ∧
      (s'.task p).requestedTime = (s.task p).requestedTime ∧
      (s'.task p).timeSlice = (s.task p).timeSlice

/-- **The requested time read back** can be written back iff nothing is rounded when it is
converted to milliseconds. -/
theorem requestedTime_writesBack_iff {lp : SchedParam} (hlife : LifeInv (s.task p).toTaskSched)
    (target : Target s pid (.valid lp) p lp) (hother : (s.task p).policy = .other)
    (hrequest : 1 ≤ lp.requestedTime.toInt ∧ lp.requestedTime.toInt ≤ 3000)
    (hcall : s.sysSchedSetscheduler pid 5 (.valid lp) = some (0, s')) :
    s'.WritesBack pid p lp.requestedTime ↔
      (hz : ℤ) ∣ (changeMsToJiffis lp.requestedTime).toInt * 1000 := by
  obtain ⟨hmay, hge, hs'⟩ := madeShort_of_accepted target hother hcall
  obtain ⟨hback0, hbackle, hback⟩ := changeJiffisToMs_spec (by omega) hrequest.2
  obtain ⟨prio, hsched⟩ := madeShort_sched p lp s
  rw [← hs'] at hsched
  have hmay' : s'.MayShorten p := hs' ▸ hmay.madeShort
  have htarget : ∀ out, Target s' pid (.valid out) p out := fun out => hs' ▸ target.madeShort
  have hshort : (s'.task p).ShortTask := by
    rw [hsched]
    exact ⟨rfl, hlife.not_overdue (by rw [hother]; decide)⟩
  have hreads : s'.Reads pid .valid p := ⟨rfl, target.pid_nonneg, (htarget lp).found⟩
  have hjiffies : (s'.task p).requestedTime = changeMsToJiffis lp.requestedTime := by rw [hsched]; rfl
  have hslice : (s'.task p).timeSlice = (changeMsToJiffis lp.requestedTime).toUInt32 := by
    rw [hsched]
    rfl
  rw [← hback]
  constructor
  · intro h
    obtain ⟨out, hout, -, hsame, -⟩ := h lp
    rw [getparam_of_reads hreads, if_pos hshort, hjiffies] at hout
    obtain rfl := Option.some.inj (congrArg Prod.snd hout)
    rw [hsame, hjiffies]
  · intro hsame lp'
    refine ⟨_, getparam_of_reads hreads lp', ?_⟩
    rw [if_pos hshort, hjiffies]
    set out : SchedParam :=
      ⟨Int32.ofInt (s'.task p).rtPriority, changeJiffisToMs (changeMsToJiffis lp.requestedTime)⟩
    have hthousands : (3000 : Int32).toInt = 3000 := by decide
    have hle : out.requestedTime ≤ 3000 := by
      rw [Int32.le_iff_toInt_le, hthousands]
      exact hbackle.trans hrequest.2
    -- nothing of the request has been used, so that any time is more than that
    have hgt : (changeMsToJiffis out.requestedTime).toUInt32 >
        (s'.task p).requestedTime.toUInt32 - (s'.task p).timeSlice := by
      have hone := Int32.le_iff_toInt_le.mp hge
      have hmin : minRequestedTime.toInt = 1 := by decide
      have hnat := toNat_toUInt32 (changeMsToJiffis lp.requestedTime)
      have hlt := (changeMsToJiffis lp.requestedTime).toInt_lt
      rw [hsame, hjiffies, hslice, UInt32.sub_self, gt_iff_lt, UInt32.lt_iff_toNat_lt]
      show 0 < _
      omega
    refine ⟨Int32.le_iff_toInt_le.mpr hbackle, hsame, _,
      setscheduler_of_adjust (htarget out) hshort.1 (.inl (by decide)) hle hgt hmay', ?_, ?_⟩
    · rw [adjusted_sched]
      exact hsame
    · have hdifference : changeMsToJiffis out.requestedTime - (s'.task p).requestedTime = 0 := by
        rw [hsame, hjiffies, Int32.sub_self]
      rw [adjusted_sched]
      change (s'.task p).timeSlice +
        (changeMsToJiffis out.requestedTime - (s'.task p).requestedTime).toUInt32 = _
      rw [hdifference]
      exact UInt32.add_zero _

/-- A tick rate that does not divide 1000. -/
abbrev hz512 : Param := ⟨512, by decide, by decide⟩

omit [Param] in
theorem lifeInv_privilegedTask : LifeInv (privilegedTask.task 1).toTaskSched :=
  InitTask.lifeInv ⟨rfl, by decide, rfl, rfl, rfl, rfl, rfl⟩

omit [Param] in
/-- With 512 ticks a second a request of 2 milliseconds is one jiffy, which reads back as 1
millisecond and is then refused. -/
theorem requestedTime_not_writesBack :
    LifeInv (privilegedTask.task 1).toTaskSched ∧ (privilegedTask.task 1).policy = .other ∧
    ∃ s', @sysSchedSetscheduler hz512 1 5 (.valid ⟨0, 2⟩) privilegedTask = some (0, s') ∧
      @sysSchedGetparam hz512 1 .valid ⟨0, 0⟩ s' = (0, some ⟨0, 1⟩) ∧
      (@sysSchedSetparam hz512 1 (.valid ⟨0, 1⟩) s').map Prod.fst = some (-eINVAL) ∧
      ¬@WritesBack hz512 s' 1 1 2 := by
  refine ⟨lifeInv_privilegedTask, rfl, ?_⟩
  have hrun : (@sysSchedSetscheduler hz512 1 5 (.valid ⟨0, 2⟩) privilegedTask).map (fun x =>
      (x.1, @sysSchedGetparam hz512 1 .valid ⟨0, 0⟩ x.2,
        (@sysSchedSetparam hz512 1 (.valid ⟨0, 1⟩) x.2).map Prod.fst)) =
      some (0, (0, some ⟨0, 1⟩), some (-eINVAL)) := by decide +kernel
  obtain ⟨⟨r, s'⟩, hcall, hval⟩ := Option.map_eq_some_iff.mp hrun
  obtain ⟨hr, hval'⟩ := Prod.mk.inj hval
  obtain ⟨hget, hset⟩ := Prod.mk.inj hval'
  dsimp only at hr hget hset
  subst hr
  refine ⟨s', hcall, hget, hset, fun hwrites => ?_⟩
  obtain ⟨out, hout, -, -, s'', hcall', -⟩ := hwrites ⟨0, 0⟩
  rw [hget] at hout
  obtain rfl := Option.some.inj (congrArg Prod.snd hout)
  rw [hcall', Option.map_some] at hset
  have hzero : (0 : ℤ) = -eINVAL := Option.some.inj hset
  exact absurd hzero (by decide)

omit [Param] in
/-- With 100 ticks a second the time that is read back can be written back. -/
theorem requestedTime_writesBack_iff_hz100 :
    ∃ s', @sysSchedSetscheduler hz100 1 5 (.valid ⟨0, 2505⟩) privilegedTask = some (0, s') ∧
      @WritesBack hz100 s' 1 1 2505 := by
  have hrun : (@sysSchedSetscheduler hz100 1 5 (.valid ⟨0, 2505⟩) privilegedTask).map Prod.fst =
      some 0 := by decide +kernel
  obtain ⟨⟨r, s'⟩, hcall, hr⟩ := Option.map_eq_some_iff.mp hrun
  dsimp only at hr
  subst hr
  exact ⟨s', hcall, (@requestedTime_writesBack_iff hz100 privilegedTask s' 1 1 ⟨0, 2505⟩
    lifeInv_privilegedTask ⟨rfl, by decide, rfl⟩ rfl (by decide) hcall).mpr (by decide)⟩

end Sys
end ShortSched
