import ShortSched.Reprioritise
import ShortSched.RequestedTime

/-!
# `setscheduler` is atomic and local

A call that fails leaves the machine as it was, but for the mark of a caller that has used its
privilege. A call that succeeds updates its target, which leaves its queue for the end of another
one if it was queued, and changes no other task but `need_resched` and `flags` of `current`.
-/

namespace ShortSched
namespace Sys

open General

variable [Param] {s s' : Sys} {p : TaskId} {r pid policy : ℤ} {param : UserParam}

/-! ## Calls that fail -/

omit [Param] in
/-- A refusal that has changed nothing. -/
theorem usedPrivilege_of_eq {e : ℤ} (h : some (e, s) = some (r, s')) : s.UsedPrivilege s' :=
  .inl (congrArg Prod.snd (Option.some.inj h)).symm

/-- A change to SHORT that fails has used a privilege at most. -/
theorem changeToShort_refused {lp : SchedParam} (hcall : s.changeToShort p lp = some (r, s'))
    (hr : r ≠ 0) : s.UsedPrivilege s' := by
  have hgranted : ∀ s₁ : Sys, some ((0 : ℤ), s₁) ≠ some (r, s') := fun s₁ h =>
    hr (congrArg Prod.fst (Option.some.inj h)).symm
  by_cases hshort : (s.task p).policy = .short
  · rw [changeToShort_adjust hshort] at hcall
    split at hcall
    · exact absurd hcall (hgranted _)
    · exact usedPrivilege_of_eq hcall
  · rw [changeToShort_make hshort] at hcall
    split at hcall
    · exact absurd hcall (hgranted _)
    · exact usedPrivilege_of_eq hcall

/-- So has a change to another policy. -/
theorem changePolicy_refused {policy : Policy} {lp : SchedParam}
    (hcall : s.changePolicy p policy lp = some (r, s')) (hr : r ≠ 0) : s.UsedPrivilege s' := by
  obtain ⟨s₁, hused, heq⟩ := s.changePolicy_eq p policy lp
  rw [heq] at hcall
  split at hcall
  · exact hused.trans (usedPrivilege_of_eq hcall)
  split at hcall
  · exact absurd (congrArg Prod.fst (Option.some.inj hcall)).symm hr
  · exact hused.trans (usedPrivilege_of_eq hcall)

/-- So has `setscheduler` once it has found its target. -/
theorem setschedulerTask_refused {lp : SchedParam}
    (hcall : s.setschedulerTask p policy lp = some (r, s')) (hr : r ≠ 0) : s.UsedPrivilege s' := by
  unfold setschedulerTask at hcall
  cases hpolicy : (if policy < 0 then some (s.task p).policy else Policy.ofInt? policy) with
  | none =>
    rw [hpolicy] at hcall
    exact usedPrivilege_of_eq hcall
  | some policy' =>
    rw [hpolicy] at hcall
    dsimp only at hcall
    split at hcall
    · -- the target is SHORT
      split at hcall
      · split at hcall
        · exact changeToShort_refused hcall hr
        · exact usedPrivilege_of_eq hcall
      · exact usedPrivilege_of_eq hcall
    split at hcall
    · -- the target is to become SHORT
      split at hcall
      · exact usedPrivilege_of_eq hcall
      split at hcall
      · exact usedPrivilege_of_eq hcall
      · exact changeToShort_refused hcall hr
    · exact changePolicy_refused hcall hr

/-- A call whose return value is not 0 was refused before anything was changed. -/
theorem setscheduler_refused (hcall : s.setscheduler pid policy param = some (r, s'))
    (hr : r ≠ 0) : s.UsedPrivilege s' := by
  unfold setscheduler at hcall
  split at hcall
  · exact usedPrivilege_of_eq hcall
  split at hcall
  · split at hcall
    · exact usedPrivilege_of_eq hcall
    · exact setschedulerTask_refused hcall hr
  · exact usedPrivilege_of_eq hcall

/-! ## Calls that succeed -/

/-- What a system call on the task `p` may change. -/
structure ChangesOnly (p : TaskId) (s s' : Sys) : Prop where
  others : ∀ t, t ≠ p → t ≠ s.rq.curr → s'.task t = s.task t
  current : s.rq.curr ≠ p → ∃ needResched flags, s'.task s.rq.curr =
    { s.current with needResched := needResched, flags := flags }
  /-- all queues but for the entry of `p` -/
  order : remove p s'.queues = remove p s.queues
  queued_iff : (s'.task p).array = none ↔ (s.task p).array = none
  linked_iff : (∃ l, p ∈ s'.queues l) ↔ ∃ l, p ∈ s.queues l
  nrRunning : s'.rq.nrRunning = s.rq.nrRunning

namespace ChangesOnly

variable {s₁ : Sys}

omit [Param] in
/-- The use of a privilege comes on top of what a call changes. -/
theorem of_usedPrivilege (hused : s.UsedPrivilege s₁) (h : ChangesOnly p s₁ s') :
    ChangesOnly p s s' := by
  rcases hused with rfl | rfl
  · exact h
  refine ⟨fun t htp htc => ?_, fun hne => ?_, h.order, ?_, h.linked_iff, h.nrRunning⟩
  · rw [h.others t htp htc, modify_task, Function.update_of_ne htc]
  · obtain ⟨needResched, flags, hcurr⟩ := h.current hne
    refine ⟨needResched, flags, hcurr.trans ?_⟩
    simp only [Sys.current, modify_rq, modify_task, Function.update_self]
  · rw [h.queued_iff, modify_proj (fun t => t.array) rfl]

omit [Param] in
/-- So does the flag of `current`. -/
theorem setTskNeedResched (h : ChangesOnly p s s') :
    ChangesOnly p s (s'.setTskNeedResched s.rq.curr) where
  others t htp htc := by
    rw [Sys.setTskNeedResched, modify_task, Function.update_of_ne htc, h.others t htp htc]
  current hne := by
    obtain ⟨_, flags, hcurr⟩ := h.current hne
    refine ⟨1, flags, ?_⟩
    rw [Sys.setTskNeedResched, modify_task, Function.update_self, hcurr]
  order := h.order
  queued_iff := by rw [(SameTasks.setTskNeedResched _ _).array, h.queued_iff]
  linked_iff := h.linked_iff
  nrRunning := h.nrRunning

end ChangesOnly

omit [Param] in
/-- An update of the target itself. -/
theorem changesOnly_modify {f : Task → Task} (hf : ∀ t : Task, (f t).array = t.array) :
    ChangesOnly p s (s.modify p f) where
  others t htp _ := by rw [modify_task, Function.update_of_ne htp]
  current hne := ⟨_, _, by rw [modify_task, Function.update_of_ne hne]⟩
  order := rfl
  queued_iff := by rw [modify_proj (fun t => t.array) (hf _)]
  linked_iff := .rfl
  nrRunning := rfl

omit [Param] in
theorem queues_dequeued (p : TaskId) (f : Task → Task) (array : PrioArrayPtr) (s : Sys) :
    (s.dequeued p f array).queues = remove p s.queues := by
  rw [dequeued, queues_modify, queues_modify, queues_dequeueTask]
  rfl

/-- `activate_task` with no flag raised. -/
theorem queues_activateTask (hflags : s.NoFlags) (p : TaskId) : (s.activateTask p).queues =
    enqueueBack p (pointerToMyActivePrioArray (s.task p).toTaskSched s.rq.toRqPtrs,
      ((s.task p).woken s.jiffies).prio) s.queues := by
  have hbranch : ¬(s.modify p (Task.woken s.jiffies)).ForkBranch p := fun h =>
    ((sameForks_woken p s).forkBranch_iff.mp h).2.1 (hflags _)
  rw [activateTask_eq, enqueueTask_of_not_forkBranch hbranch]
  refine (queues_enqueueTail _ p _).trans ?_
  rw [modify_task, Function.update_self, queues_modify]

/-- A queued target is taken off its queue and goes to the end of another one. -/
theorem queues_requeued {f : Task → Task} {array : PrioArrayPtr} (hflags : s.NoFlags)
    (hf : ∀ t : Task, (f t).justGotForked = t.justGotForked)
    (harray : (s.task p).array = some array) :
    ∃ l, (s.requeued p f).queues = enqueueBack p l (remove p s.queues) := by
  have hflags' : (s.dequeued p f array).NoFlags := by
    intro t
    rw [dequeued, modify_proj (fun t => t.justGotForked) (hf _),
      modify_proj (fun t => t.justGotForked) rfl, dequeueTask_task]
    exact hflags t
  rw [requeued_of_queued harray, queues_activateTask hflags', queues_dequeued]
  exact ⟨_, rfl⟩

/-- **`requeue`** with no flag raised changes its target alone. -/
theorem changesOnly_requeued {f : Task → Task} (h : s.Layout) (hflags : s.NoFlags)
    (hf : ∀ t : Task, (f t).array = t.array ∧ (f t).justGotForked = t.justGotForked)
    (hnone : ∀ t : Task, f { t with array := none } = { f t with array := none }) :
    ChangesOnly p s (s.requeued p f) := by
  cases harray : (s.task p).array with
  | none =>
    rw [requeued, harray]
    exact changesOnly_modify fun t => (hf t).1
  | some array =>
    obtain ⟨l, hqueues⟩ := queues_requeued hflags (fun t => (hf t).2) harray
    have hpulled : ∀ t, t ∉ (s.modify p f).pulled p := fun t ht =>
      justGotForked_of_mem_pulled ht ((modify_proj (fun t => t.justGotForked) (hf _).2 t).trans
        (hflags t))
    have htask : ∀ t, t ≠ p → (s.requeued p f).task t = s.task t := by
      intro t ht
      rw [requeued_task hnone harray]
      simp only [ht, hpulled, or_self, if_false, modify_task, Function.update_of_ne ht]
    refine ⟨fun t htp _ => htask t htp, fun hne => ⟨_, _, htask _ hne⟩, ?_, ?_, ?_, ?_⟩
    · rw [hqueues, remove_enqueueBack fun l hl => (mem_remove.mp hl).1 rfl]
    · rw [requeued_task hnone harray, harray]
      simp
    · -- it is linked before and after
      refine iff_of_true ⟨l, ?_⟩ ⟨(array, (s.task p).prio), ?_⟩
      · rw [hqueues, enqueueBack, Function.update_self]
        exact List.mem_append_right _ (List.mem_singleton_self p)
      · exact (h.placed.mem p _).mpr (Task.level_eq_some.mpr ⟨harray, rfl⟩)
    · have hdequeued : (s.dequeued p f array).rq.nrRunning = s.rq.nrRunning - 1 := by
        rw [dequeued, modify_rq, modify_rq, dequeueTask_ptrs]
        rfl
      rw [requeued_of_queued harray, activateTask_ptrs]
      simp only [hdequeued]
      omega

/-! ## The cases of a call that succeeds -/

/-- The call makes the update between `deactivate_task` and `activate_task` of its target. -/
inductive Requeues (s : Sys) (pid policy : ℤ) (param : UserParam) (p : TaskId) :
    (Task → Task) → Prop
  | makeShort {lp : SchedParam} (target : Target s pid param p lp)
      (hother : (s.task p).policy = .other) (hrequest : s.requestedPolicy p policy = some .short)
      (hle : lp.requestedTime ≤ 3000)
      (hge : minRequestedTime ≤ changeMsToJiffis lp.requestedTime) (hmay : s.MayShorten p) :
      Requeues s pid policy param p (Task.makeShort lp)
  | setPolicy {lp : SchedParam} {policy' : Policy} (target : Target s pid param p lp)
      (hnot : (s.task p).policy ≠ .short) (hrequest : s.requestedPolicy p policy = some policy')
      (hnew : policy' ≠ .short) (hvalid : ValidPriority policy' lp) (hmay : s.MayChange p policy') :
      Requeues s pid policy param p (Task.setPolicy policy' lp)

/-- The effect of a call that succeeds. -/
inductive Granted (s : Sys) (pid policy : ℤ) (param : UserParam) (p : TaskId) : Sys → Prop
  | adjusted {lp : SchedParam} (target : Target s pid param p lp)
      (hshort : (s.task p).policy = .short) (hrequest : s.requestedPolicy p policy = some .short) :
      Granted s pid policy param p
        ((s.modify p (Task.adjustShort lp)).setTskNeedResched s.rq.curr)
  | madeShort {lp : SchedParam} (h : Requeues s pid policy param p (Task.makeShort lp))
      (hrequest : s.requestedPolicy p policy = some .short) :
      Granted s pid policy param p
        ((s.requeued p (Task.makeShort lp)).setTskNeedResched s.rq.curr)
  | changed {lp : SchedParam} {policy' : Policy} {s₁ : Sys}
      (h : Requeues s pid policy param p (Task.setPolicy policy' lp)) (hused : s.UsedPrivilege s₁)
      (hrequest : s.requestedPolicy p policy = some policy') :
      Granted s pid policy param p (s₁.requeued p (Task.setPolicy policy' lp))

/-- A call that succeeds on a task that is not SHORT queues it again. -/
theorem granted_of_not_short {lp : SchedParam} (target : Target s pid param p lp)
    (hnot : (s.task p).policy ≠ .short)
    (hcall : s.setscheduler pid policy param = some (0, s')) : Granted s pid policy param p s' := by
  cases hrequest : s.requestedPolicy p policy with
  | none =>
    rw [setscheduler_of_no_policy target hrequest] at hcall
    exact absurd hcall (error_ne_zero (by decide))
  | some policy' =>
    rw [setscheduler_of_request target hrequest, if_neg hnot] at hcall
    by_cases hnew : policy' = .short
    · subst hnew
      rw [if_pos rfl] at hcall
      split at hcall
      · exact absurd hcall (error_ne_zero (by decide))
      next hrt =>
      split at hcall
      · exact absurd hcall (error_ne_zero (by decide))
      next hreq =>
      rw [changeToShort_make hnot] at hcall
      split at hcall
      swap
      · exact absurd hcall (error_ne_zero (by decide))
      next hmay =>
      have hother : (s.task p).policy = .other := by
        cases h : (s.task p).policy <;> simp_all
      rw [not_or, Int32.not_lt, Int32.not_lt] at hreq
      obtain rfl := congrArg Prod.snd (Option.some.inj hcall)
      exact .madeShort (.makeShort target hother hrequest hreq.1 hreq.2 hmay) hrequest
    · obtain ⟨s₁, hused, heq⟩ := s.changePolicy_eq p policy' lp
      rw [if_neg hnew, heq] at hcall
      split at hcall
      · exact absurd hcall (error_ne_zero (by decide))
      next hvalid =>
      split at hcall
      swap
      · exact absurd hcall (error_ne_zero (by decide))
      next hmay =>
      obtain rfl := congrArg Prod.snd (Option.some.inj hcall)
      exact .changed (.setPolicy target hnot hrequest hnew (not_not.mp hvalid) hmay) hused hrequest

/-- **A call that succeeds** has found its target and its request is granted. -/
theorem setscheduler_granted (hcall : s.setscheduler pid policy param = some (0, s')) :
    ∃ p, Granted s pid policy param p s' := by
  cases SetschedCase.of_eq_some hcall with
  | refused hr _ => exact absurd hr (lt_irrefl 0)
  | @adjusted p lp target hshort hpolicy =>
    refine ⟨p, .adjusted target hshort ?_⟩
    rw [requestedPolicy, hshort]
    split
    · rfl
    · next hneg => exact hpolicy.resolve_left hneg
  | @madeShort p lp target hother =>
    have hnot : (s.task p).policy ≠ .short := by
      rw [hother]
      decide
    exact ⟨p, granted_of_not_short target hnot hcall⟩
  | @changed p lp policy' s₁ target hnot => exact ⟨p, granted_of_not_short target hnot hcall⟩

theorem Requeues.target {f : Task → Task} (h : Requeues s pid policy param p f) :
    ∃ lp, Target s pid param p lp := by
  cases h with
  | makeShort target => exact ⟨_, target⟩
  | setPolicy target => exact ⟨_, target⟩

theorem Requeues.array_none {f : Task → Task} (h : Requeues s pid policy param p f) (t : Task) :
    f { t with array := none } = { f t with array := none } := by
  cases h <;> rfl

/-- The conditions of `Requeues` are those under which the call succeeds. -/
theorem setscheduler_of_requeues {f : Task → Task} (h : Requeues s pid policy param p f) :
    ∃ s₁ s', s.UsedPrivilege s₁ ∧ s.setscheduler pid policy param = some (0, s') ∧
      (s' = s₁.requeued p f ∨ s' = (s₁.requeued p f).setTskNeedResched s.rq.curr) := by
  cases h with
  | @makeShort lp target hother hrequest hle hge hmay =>
    have hreq : ¬(lp.requestedTime > 3000 ∨
        changeMsToJiffis lp.requestedTime < minRequestedTime) := by
      rw [not_or, Int32.not_lt, Int32.not_lt]
      exact ⟨hle, hge⟩
    refine ⟨s, _, .refl s, ?_, .inr rfl⟩
    rw [setscheduler_of_other_short target hother hrequest, if_neg hreq, if_pos hmay]
  | @setPolicy lp policy' target hnot hrequest hnew hvalid hmay =>
    obtain ⟨s₁, hused, heq⟩ := s.changePolicy_eq p policy' lp
    refine ⟨s₁, _, hused, ?_, .inl rfl⟩
    rw [setscheduler_of_request target hrequest, if_neg hnot, if_neg hnew, heq,
      if_neg (not_not.mpr hvalid), if_pos hmay]

/-- The target has the policy that its update gives it. -/
theorem requeued_policy {f : Task → Task}
    (hf : ∀ t : Task, f { t with array := none } = { f t with array := none }) :
    ((s.requeued p f).task p).policy = (f (s.task p)).policy := by
  rw [requeued_sched hf, if_pos rfl]
  split
  · rfl
  · rw [Task.woken_sched]

/-- A call that succeeds gives its target the policy that was asked for. -/
theorem Granted.policy_eq (h : Granted s pid policy param p s') :
    s.findProcessByPid pid = some p ∧
      s.requestedPolicy p policy = some (s'.task p).policy := by
  cases h with
  | adjusted target hshort hrequest =>
    rw [adjusted_sched]
    exact ⟨target.found, hrequest.trans (congrArg some hshort.symm)⟩
  | @madeShort lp h hrequest =>
    obtain ⟨_, target⟩ := h.target
    obtain ⟨prio, hsched⟩ := madeShort_sched p lp s
    rw [hsched]
    exact ⟨target.found, hrequest⟩
  | changed h _ hrequest =>
    obtain ⟨lp, target⟩ := h.target
    rw [requeued_policy fun _ => rfl]
    exact ⟨target.found, hrequest⟩

/-- **What is granted** changes the target, and the queues around it. -/
theorem Granted.changesOnly (h : Granted s pid policy param p s') (hinv : s.Layout)
    (hflags : s.NoFlags) : ChangesOnly p s s' := by
  cases h with
  | @adjusted lp =>
    exact (changesOnly_modify (f := Task.adjustShort lp) fun _ => rfl).setTskNeedResched
  | @madeShort lp =>
    exact (changesOnly_requeued (f := Task.makeShort lp) hinv hflags (fun _ => ⟨rfl, rfl⟩)
      fun _ => rfl).setTskNeedResched
  | changed _ hused =>
    have hsame := hused.sameButFlags
    have hinv₁ : Layout _ := hinv.congr (by rw [hsame.rq]) hsame.sameTasks.array fun t _ => by
      rw [hsame.sameTasks.sched]
    exact .of_usedPrivilege hused (changesOnly_requeued hinv₁ (hflags.sameTasks hsame.sameTasks)
      (fun _ => ⟨rfl, rfl⟩) fun _ => rfl)

/-- **`setscheduler` is atomic and local**: a call that fails leaves everything but the mark of a
used privilege, and a call that succeeds gives its target the policy that was asked for and
changes nothing else but `need_resched` and `flags` of `current`. -/
theorem setscheduler_atomic (h : s.RqInv) (hflags : s.NoFlags) (pid policy : ℤ)
    (param : UserParam) :
    ∃ r s', s.setscheduler pid policy param = some (r, s') ∧
      (r ≠ 0 → s.UsedPrivilege s') ∧
      (r = 0 → ∃ p, s.findProcessByPid pid = some p ∧
        s.requestedPolicy p policy = some (s'.task p).policy ∧ ChangesOnly p s s') := by
  obtain ⟨⟨r, s'⟩, hcall, -⟩ := s.setscheduler_cases pid policy param
  refine ⟨r, s', hcall, setscheduler_refused hcall, ?_⟩
  rintro rfl
  obtain ⟨p, hgranted⟩ := setscheduler_granted hcall
  obtain ⟨hfound, hpolicy⟩ := hgranted.policy_eq
  exact ⟨p, hfound, hpolicy, hgranted.changesOnly h.layout hflags⟩

omit [Param] in
/-- The superuser makes its task SHORT for a second, and is refused a FIFO priority of 100. -/
theorem setscheduler_atomic_privileged :
    (∃ s', @setscheduler hz100 1 5 (.valid ⟨0, 1000⟩) privilegedTask = some (0, s') ∧
      (s'.task 1).policy = .short ∧ ChangesOnly 1 privilegedTask s') ∧
    ∃ s', @setscheduler hz100 1 1 (.valid ⟨100, 0⟩) privilegedTask = some (-eINVAL, s') ∧
      privilegedTask.UsedPrivilege s' := by
  have hflags : privilegedTask.NoFlags := noFlags_ofList (by decide)
  have hinv : privilegedTask.RqInv := rqInv_ofList (by decide) (by decide)
  constructor
  · obtain ⟨r, s', hcall, -, hgranted⟩ := @setscheduler_atomic hz100 privilegedTask hinv hflags 1 5
      (.valid ⟨0, 1000⟩)
    have hzero : (@setscheduler hz100 1 5 (.valid ⟨0, 1000⟩) privilegedTask).map Prod.fst =
        some 0 := by decide +kernel
    rw [hcall, Option.map_some] at hzero
    obtain rfl := Option.some.inj hzero
    obtain ⟨p, hfound, hpolicy, hchanges⟩ := hgranted rfl
    obtain rfl : 1 = p := Option.some.inj hfound
    exact ⟨s', hcall, (Option.some.inj hpolicy).symm, hchanges⟩
  · obtain ⟨r, s', hcall, hrefused, -⟩ := @setscheduler_atomic hz100 privilegedTask hinv hflags 1 1
      (.valid ⟨100, 0⟩)
    have herror : (@setscheduler hz100 1 1 (.valid ⟨100, 0⟩) privilegedTask).map Prod.fst =
        some (-eINVAL) := by decide +kernel
    rw [hcall, Option.map_some] at herror
    obtain rfl := Option.some.inj herror
    exact ⟨s', hcall, hrefused (by decide)⟩

end Sys
end ShortSched
