import ShortSched.ForkReap
import ShortSched.General.Ledger
import ShortSched.ShortLinks

/-!
# The SHORT time of a family

A SHORT task shares its slice with its children and gets back what they leave. The family of a
task are the task and those that it and its descendants fork. What the family has left of the
SHORT time and what it has used of it add up to what the first task was given, as long as no tick
between `*p = *current` and `__cli` ends the class of a parent: the split leaves the child of an
overdue parent the slice that was copied.
-/

namespace ShortSched

open General Sys

/-- What a task has left of the SHORT time. -/
def TaskSched.share (p : TaskSched) : ℕ := if p.ShortTask then p.timeSlice.toNat else 0

/-- The members of a family that have not been reaped, who forked them, the ticks that members
received while SHORT and not overdue, and whether a member has been reaped. -/
structure Family where
  members : Finset TaskId
  forker : TaskId → Option TaskId
  ticks : ℕ
  reaped : Bool

/-- A task without children. -/
def Family.root (p : TaskId) : Family := ⟨{p}, fun _ => none, 0, false⟩

/-- The family after `curr` forked `child`. -/
def Family.fork (curr child : TaskId) (F : Family) : Family :=
  { F with
    members := insert child F.members
    forker := Function.update F.forker child (some curr) }

/-- What a family has left of the SHORT time. -/
def Sys.shares (s : Sys) (M : Finset TaskId) : ℕ := ∑ t ∈ M, (s.task t).share

variable [Param]

namespace Sys

/-- The family after an operation. A child belongs to it from the split on. -/
def growFamily (s : Sys) : Op → Family → Family
  | .schedulerTick, F =>
    if s.rq.curr ∈ F.members ∧ s.current.ShortTask then { F with ticks := F.ticks + 1 } else F
  | .doForkSplit, F =>
    match s.forking with
    | none => F
    | some f => if s.rq.curr ∈ F.members then F.fork s.rq.curr f.child else F
  | .schedExit p, F =>
    if p ∈ F.members then
      { F with
        members := F.members.erase p
        forker := fun c => if c = p ∨ F.forker c = some p then none else F.forker c
        reaped := true }
    else F
  | _, F => F

/-- The steps in question: no system call changes the time or the place of a member, and a
member reaps none but the children that it forked. -/
def LeavesFamily (x : Sys × Family) : Op → Prop
  | .setUserNice _ _ => False
  | .setscheduler pid _ _ => ∀ p ∈ x.1.findProcessByPid pid, p ∉ x.2.members
  | .schedExit p => x.1.rq.curr ∈ x.2.members →
      p ∈ x.2.members ∧ x.2.forker p = some x.1.rq.curr
  | _ => True

instance (x : Sys × Family) : DecidablePred (LeavesFamily x)
  | .setUserNice _ _ => inferInstanceAs (Decidable False)
  | .setscheduler pid _ _ =>
    inferInstanceAs (Decidable (∀ p ∈ x.1.findProcessByPid pid, p ∉ x.2.members))
  | .schedExit _ => inferInstanceAs (Decidable (_ → _ ∧ _))
  | .tryToWakeUp _ _ | .schedule | .schedulerTick | .sysSchedYield | .doFork _ _ | .doForkSplit
  | .doForkWake | .vforkReturn | .doExit _ | .setCurrentState _ | .setSigpending _ _ | .setJiffies _ =>
    inferInstanceAs (Decidable True)

/-- A member that splits its slice with a copy that is SHORT is SHORT itself: it has not become
overdue since the copy. -/
def SplitsInTime (x : Sys × Family) : Op → Prop
  | .doForkSplit => x.1.rq.curr ∈ x.2.members →
      ∀ f ∈ x.1.forking, (x.1.task f.child).ShortTask → x.1.current.ShortTask
  | _ => True

instance (x : Sys × Family) : DecidablePred (SplitsInTime x)
  | .doForkSplit => inferInstanceAs (Decidable (_ → ∀ f ∈ _, _ → _))
  | .setUserNice _ _ | .setscheduler _ _ _ | .schedExit _ | .tryToWakeUp _ _ | .schedule
  | .schedulerTick | .sysSchedYield | .doFork _ _ | .doForkWake | .vforkReturn | .doExit _
  | .setCurrentState _ | .setSigpending _ _ | .setJiffies _ => inferInstanceAs (Decidable True)

/-- The steps that keep the law of the family. -/
def KeepsFamily (x : Sys × Family) (op : Op) : Prop := LeavesFamily x op ∧ SplitsInTime x op

instance (x : Sys × Family) : DecidablePred (KeepsFamily x) := fun op =>
  inferInstanceAs (Decidable (LeavesFamily x op ∧ SplitsInTime x op))

end Sys

variable {s s' : Sys} {op : Op} {t : TaskId} {F : Family} {f : PendingFork} {r : ℕ}

/-! ## One member -/

omit [Param] in
theorem SameTime.share_eq {p p' : TaskSched} (h : SameTime p p') : p'.share = p.share := by
  unfold TaskSched.share
  simp only [h.shortTask_iff, h.timeSlice]

omit [Param] in
/-- How a member ages: it does not become SHORT, and while it has its first slice it does not
become overdue. -/
structure Ages (p p' : TaskSched) : Prop where
  short : p'.ShortTask → p.ShortTask
  first : p'.firstTimeSlice ≠ 0 → p.firstTimeSlice ≠ 0
  stays : p'.firstTimeSlice ≠ 0 → p.ShortTask → p'.ShortTask

omit [Param] in
theorem SameTime.ages {p p' : TaskSched} (h : SameTime p p') : Ages p p' where
  short := h.shortTask_iff.mp
  first hfirst := by rwa [← h.firstTimeSlice]
  stays _ := h.shortTask_iff.mpr

omit [Param] in
theorem ages_setSlice (p : TaskSched) (timeSlice : UInt32) :
    Ages p { p with timeSlice := timeSlice } :=
  ⟨fun h => h, fun h => h, fun _ h => h⟩

/-- A tick ages a task: it ends first slices and classes, and starts none. -/
theorem Task.ages_afterTick (u : Task) : Ages u.toTaskSched u.afterTick.toTaskSched where
  short h := (Task.afterTick_short h).1
  first h := by
    rcases u.afterTick_cases with ⟨_, _, hfirst, heq⟩ | ⟨-, -, heq⟩
    · rw [heq] at h
      rwa [← hfirst h]
    · rw [heq] at h
      exact absurd rfl h
  stays h hshort := by
    rcases u.afterTick_cases with ⟨_, _, -, heq⟩ | ⟨-, -, heq⟩
    · rw [heq]
      exact hshort
    · rw [heq] at h
      exact absurd rfl h

/-- The last jiffy ends the class. -/
theorem Task.not_short_afterTick_last {u : Task} (hrt : ¬u.RtTask) (hshort : u.ShortTask)
    (hslice : u.timeSlice = 1) : ¬u.afterTick.ShortTask := by
  rw [afterTick_last_short hrt hshort hslice]
  exact fun h => one_ne_zero h.2

/-- A task that stays SHORT over a tick has a jiffy left. -/
theorem Task.one_le_afterTick {u : Task} (hok : TaskOk u.toTaskSched)
    (hsome : 1 ≤ u.timeSlice.toNat) (h : u.afterTick.ShortTask) :
    1 ≤ u.afterTick.timeSlice.toNat := by
  have hshort := (afterTick_short h).1
  have hrt : ¬u.RtTask := hok.not_rtTask (.inr hshort.1)
  have hslice : u.timeSlice ≠ 1 := fun hc => not_short_afterTick_last hrt hshort hc h
  have hne : u.timeSlice.toNat ≠ 1 := fun hc => hslice (slice_eq_one.mpr hc)
  rw [afterTick_run hrt hslice, toNat_sub_one hsome]
  omega

/-- A tick takes a jiffy of the share, down to none. -/
theorem Task.share_afterTick {u : Task} (hok : TaskOk u.toTaskSched) (hshort : u.ShortTask)
    (hsome : 1 ≤ u.timeSlice.toNat) : u.afterTick.share + 1 = u.share := by
  have hrt : ¬u.RtTask := hok.not_rtTask (.inr hshort.1)
  have hold : u.share = u.timeSlice.toNat := if_pos hshort
  by_cases hslice : u.timeSlice = 1
  · have hnew : u.afterTick.share = 0 := if_neg (not_short_afterTick_last hrt hshort hslice)
    rw [hnew, hold, hslice]
    rfl
  · have hnew : u.afterTick.share = (u.timeSlice - 1).toNat := by
      unfold TaskSched.share
      rw [afterTick_run hrt hslice]
      exact if_pos hshort
    rw [hnew, hold, toNat_sub_one hsome]
    omega

omit [Param] in
theorem TaskSched.share_of_not_short {p : TaskSched} (h : ¬p.ShortTask) : p.share = 0 := if_neg h

/-- A member that a step is not about keeps its time. -/
theorem sameTime_of_untouched (hstep : Step s op s') (hfamily : LeavesFamily (s, F) op)
    (ht : t ∈ F.members) (hop : Untouched s t op) :
    SameTime (s.task t).toTaskSched (s'.task t).toTaskSched := by
  have htime := step_time hstep t
  generalize (s'.task t).toTaskSched = p' at htime ⊢
  cases htime with
  | same _ h => exact h
  | tick hcurr hcharged => exact absurd ⟨hcurr, hcharged⟩ hop
  | adjust target | make target | setPolicy target => exact absurd ht (hfamily t target.found)
  | forkCopy hnot hc => exact absurd hc (hop.resolve_left hnot)
  | forkSlice hcurr | forkExpired hcurr | forkTick hcurr => exact absurd hcurr hop.1
  | forkChild hf hc => exact absurd hc (hop.2 _ hf)
  | reap hcurr => exact absurd hcurr hop

/-- **A member** ages in every step that leaves the family alone. -/
theorem ages_step (hstep : Step s op s') (hfamily : LeavesFamily (s, F) op) (ht : t ∈ F.members)
    (howns : s.OwnsSlice t) :
    Ages (s.task t).toTaskSched (s'.task t).toTaskSched := by
  have htime := step_time hstep t
  generalize (s'.task t).toTaskSched = p' at htime ⊢
  cases htime with
  | same _ h => exact h.ages
  | tick => exact Task.ages_afterTick _
  | adjust target | make target | setPolicy target => exact absurd ht (hfamily t target.found)
  | forkSlice | forkExpired | reap => exact ages_setSlice _ _
  | forkTick =>
    have hages := Task.ages_afterTick { s.task t with timeSlice := 1, justGotForked := 0 }
    exact ⟨hages.short, hages.first, hages.stays⟩
  | forkCopy _ hc => exact absurd hc (ne_child_of_isTask hstep howns.isTask _ _ rfl)
  | forkChild hf hc => exact absurd hc (ne_child_of_ownsSlice hstep hf howns)

/-- The priorities of every task but the idle task fit its policy after every step. -/
theorem taskOk_step (hstep : Step s op s')
    (hok : ∀ t, t ≠ s.rq.idle → TaskOk (s.task t).toTaskSched) (ht : t ≠ s'.rq.idle) :
    TaskOk (s'.task t).toTaskSched := by
  rw [step_idle hstep] at ht
  refine (step_sched hstep t).taskOk (hok t ht) fun cloneFlags env hop _ => ?_
  subst hop
  exact hok _ hstep.1.1.2

/-- The copy that a pending fork has made is linked nowhere. -/
def PendingLinks (s : Sys) : Prop := ∀ f ∈ s.forking, f.split = false → ShortLinks f.child s

/-- The copy stays unlinked until it is split. -/
theorem PendingLinks.step (h : PendingLinks s) (hlinked : s.Linked) (hstep : Step s op s')
    (hnice : ∀ p nice, op ≠ .setUserNice p nice) : PendingLinks s' := by
  intro f hf hsplit
  cases step_lists hstep with
  | same _ hsame =>
    rw [hsame.forking] at hf
    exact (h f hf hsplit).step hlinked hstep hnice
  | doFork cloneFlags env _ hforking =>
    rw [hforking, Option.mem_some_iff] at hf
    subst hf
    by_cases hrefused : s.ForkRefused cloneFlags env
    · obtain rfl := Option.some.inj hstep.2
      have hsame := (doFork_of_refused hrefused).2
      rw [hsame, hstep.1.1.1] at hforking
      cases hforking
    · exact .of_array (hlinked.step hstep) (.inl (doFork_child_array hstep hrefused))
  | doForkSplit _ _ _ hforking =>
    rw [hforking, Option.mem_some_iff] at hf
    subst hf
    cases hsplit
  | doForkWake _ _ hforking =>
    rw [hforking] at hf
    cases hf
  | schedExit p _ hforking =>
    rw [hforking] at hf
    exact (h f hf hsplit).step hlinked hstep hnice

/-- A copy of a member that is SHORT has a slice, until it is split. -/
def PendingSlice (M : Finset TaskId) (s : Sys) : Prop :=
  ∀ f ∈ s.forking, f.split = false → s.rq.curr ∈ M → (s.task f.child).ShortTask →
    1 ≤ (s.task f.child).timeSlice.toNat

theorem PendingSlice.step {M : Finset TaskId} (h : PendingSlice M s) (hcopy : CopyInv s)
    (hslice : s.rq.curr ∈ M → s.current.ShortTask → 1 ≤ s.current.timeSlice.toNat)
    (hstep : Step s op s') : PendingSlice M s' := by
  intro f hf hsplit hcurr hshort
  cases hforking : s.forking with
  | none =>
    -- the copy has just been made
    cases step_lists hstep with
    | same _ hsame =>
      rw [hsame.forking, hforking] at hf
      cases hf
    | doFork cloneFlags env _ hforking' =>
      rw [hforking', Option.mem_some_iff] at hf
      subst hf
      by_cases hrefused : s.ForkRefused cloneFlags env
      · have hsame : s' = s := (Option.some.inj hstep.2).symm.trans (doFork_of_refused hrefused).2
        rw [hsame, hforking] at hforking'
        cases hforking'
      · have hchild := doFork_child_sched hstep hrefused
        rw [hchild] at hshort ⊢
        rw [doFork_step hstep hrefused] at hcurr
        exact hslice hcurr hshort
    | doForkSplit hf' =>
      rw [hforking] at hf'
      cases hf'
    | doForkWake hf' =>
      rw [hforking] at hf'
      cases hf'
    | schedExit _ _ hforking' =>
      rw [hforking', hforking] at hf
      cases hf
  | some f' =>
    rcases interrupt_of_forking hforking hstep.1 with hop | ⟨rfl, -⟩ | ⟨rfl, -⟩
    · rw [(hop.sameLists hstep).forking] at hf
      have hchild := (hcopy f hf hsplit).2.sched_eq hop hstep
      rw [(hop.samePtrs hstep).curr] at hcurr
      rw [hchild] at hshort ⊢
      exact h f hf hsplit hcurr hshort
    · obtain ⟨f'', -, -, -, -, -, rfl⟩ := doForkSplit_step hstep
      have hf : some { f'' with split := true } = some f := hf
      rw [← Option.some.inj hf] at hsplit
      cases hsplit
    · obtain ⟨-, -, -, hnone⟩ := doForkWake_lists hstep.2
      rw [hnone] at hf
      cases hf

/-! ## The invariant -/

/-- What holds of a family whose first member was given `r` jiffies. -/
structure FamilyInv (r : ℕ) (x : Sys × Family) : Prop where
  linked : x.1.Linked
  links : ∀ t ∈ x.2.members, ShortLinks t x.1
  pending : PendingLinks x.1
  copied : CopyInv x.1 ∧ PendingSlice x.2.members x.1
  owns : ∀ t ∈ x.2.members, x.1.OwnsSlice t
  ne_idle : ∀ t ∈ x.2.members, t ≠ x.1.rq.idle
  ok : ∀ t, t ≠ x.1.rq.idle → TaskOk (x.1.task t).toTaskSched
  slice : ∀ t ∈ x.2.members, (x.1.task t).ShortTask → 1 ≤ (x.1.task t).timeSlice.toNat
  forker_mem : ∀ c t, x.2.forker c = some t → t ∈ x.2.members
  /-- a child that has its first slice is SHORT like the parent -/
  kids : ∀ c ∈ x.2.members, ∀ t, x.2.forker c = some t → (x.1.task t).ShortTask →
    (x.1.task c).firstTimeSlice ≠ 0 → (x.1.task c).ShortTask
  total : x.2.ticks + x.1.shares x.2.members ≤ r
  balanced : x.2.reaped = false → x.2.ticks + x.1.shares x.2.members = r

namespace FamilyInv

theorem ages (h : FamilyInv r (s, F)) (hstep : Step s op s') (hfamily : LeavesFamily (s, F) op)
    (ht : t ∈ F.members) : Ages (s.task t).toTaskSched (s'.task t).toTaskSched :=
  ages_step hstep hfamily ht (h.owns t ht)

theorem links_step (h : FamilyInv r (s, F)) (hstep : Step s op s')
    (hfamily : LeavesFamily (s, F) op) (ht : t ∈ F.members) : ShortLinks t s' := by
  refine (h.links t ht).step h.linked hstep ?_
  rintro p nice rfl
  exact hfamily

/-- A step that leaves the members as they are. -/
theorem copied_step (h : FamilyInv r (s, F)) (hstep : Step s op s') :
    CopyInv s' ∧ PendingSlice F.members s' :=
  ⟨h.copied.1.step hstep, h.copied.2.step h.copied.1 (h.slice s.rq.curr) hstep⟩

theorem pending_step (h : FamilyInv r (s, F)) (hstep : Step s op s')
    (hfamily : LeavesFamily (s, F) op) : PendingLinks s' := by
  refine h.pending.step h.linked hstep ?_
  rintro p nice rfl
  exact hfamily

omit [Param] in
theorem ok_member (h : FamilyInv r (s, F)) (ht : t ∈ F.members) : TaskOk (s.task t).toTaskSched :=
  h.ok t (h.ne_idle t ht)

/-- Parents and children age alike. -/
theorem kids_step (h : FamilyInv r (s, F)) (hstep : Step s op s')
    (hfamily : LeavesFamily (s, F) op) {c : TaskId} (hc : c ∈ F.members)
    (hforker : F.forker c = some t) (hshort : (s'.task t).ShortTask)
    (hfirst : (s'.task c).firstTimeSlice ≠ 0) : (s'.task c).ShortTask := by
  have hparent := h.ages hstep hfamily (h.forker_mem c t hforker)
  have hchild := h.ages hstep hfamily hc
  exact hchild.stays hfirst (h.kids c hc t hforker (hparent.short hshort) (hchild.first hfirst))

/-- A step that adds no member and reaps none. -/
theorem aged (h : FamilyInv r (s, F)) (hstep : Step s op s') (hfamily : LeavesFamily (s, F) op)
    (hexit : ∀ p ∈ F.members, op ≠ .schedExit p) (ticks : ℕ)
    (hslice : ∀ t ∈ F.members, (s'.task t).ShortTask → 1 ≤ (s'.task t).timeSlice.toNat)
    (htotal : ticks + s'.shares F.members = F.ticks + s.shares F.members) :
    FamilyInv r (s', { F with ticks := ticks }) where
  linked := h.linked.step hstep
  links t ht := h.links_step hstep hfamily ht
  pending := h.pending_step hstep hfamily
  copied := h.copied_step hstep
  owns t ht := ownsSlice_step hstep (hexit t ht) (h.owns t ht)
  ne_idle t ht := by
    rw [step_idle hstep]
    exact h.ne_idle t ht
  ok _ ht := taskOk_step hstep h.ok ht
  slice := hslice
  forker_mem := h.forker_mem
  kids c hc t hforker := h.kids_step hstep hfamily hc hforker
  total := htotal.trans_le h.total
  balanced hreaped := htotal.trans (h.balanced hreaped)

/-- A step that is not about a member. -/
theorem untouched (h : FamilyInv r (s, F)) (hstep : Step s op s')
    (hfamily : LeavesFamily (s, F) op) (hexit : ∀ p ∈ F.members, op ≠ .schedExit p)
    (hop : ∀ t ∈ F.members, Untouched s t op) : FamilyInv r (s', F) := by
  have hsame : ∀ t ∈ F.members, SameTime (s.task t).toTaskSched (s'.task t).toTaskSched :=
    fun t ht => sameTime_of_untouched hstep hfamily ht (hop t ht)
  refine h.aged hstep hfamily hexit F.ticks (fun t ht hshort => ?_) ?_
  · rw [(hsame t ht).timeSlice]
    exact h.slice t ht ((hsame t ht).shortTask_iff.mp hshort)
  · rw [shares, Finset.sum_congr rfl fun t ht => (hsame t ht).share_eq, ← shares]

/-- A tick moves a jiffy of a SHORT member from what is left to what was used. -/
theorem schedulerTick (h : FamilyInv r (s, F)) (hstep : Step s .schedulerTick s') :
    FamilyInv r (s', s.growFamily .schedulerTick F) := by
  have hexit : ∀ p ∈ F.members, Op.schedulerTick ≠ .schedExit p := fun _ _ hc => nomatch hc
  by_cases hcurr : s.rq.curr ∈ F.members
  swap
  · rw [growFamily, if_neg fun hc => hcurr hc.1]
    refine h.untouched hstep trivial hexit fun t ht hc => ?_
    exact hcurr (hc.1 ▸ ht)
  have hothers : ∀ t ∈ F.members, t ≠ s.rq.curr →
      SameTime (s.task t).toTaskSched (s'.task t).toTaskSched := fun t ht hne =>
    sameTime_of_untouched hstep (F := F) trivial ht fun hc => hne hc.1
  have hsum := sum_change_one (fun t => (s.task t).share) (fun t => (s'.task t).share) hcurr
    fun t ht hne => (hothers t ht hne).share_eq
  by_cases hshort : s.current.ShortTask
  swap
  · rw [growFamily, if_neg fun hc => hshort hc.2]
    have hnew : ¬(s'.task s.rq.curr).ShortTask := fun hc =>
      hshort ((h.ages hstep trivial hcurr).short hc)
    refine h.aged hstep trivial hexit F.ticks (fun t ht hs => ?_) ?_
    · have hne : t ≠ s.rq.curr := by
        rintro rfl
        exact hnew hs
      rw [(hothers t ht hne).timeSlice]
      exact h.slice t ht ((hothers t ht hne).shortTask_iff.mp hs)
    · rw [TaskSched.share_of_not_short hshort, TaskSched.share_of_not_short hnew] at hsum
      unfold shares
      omega
  -- a SHORT member is charged
  rw [growFamily, if_pos ⟨hcurr, hshort⟩]
  have hidle := h.ne_idle _ hcurr
  have hslice := h.slice _ hcurr hshort
  have hok := h.ok_member hcurr
  have htick : (s'.task s.rq.curr).toTaskSched = s.current.afterTick.toTaskSched := by
    obtain rfl := Option.some.inj hstep.2
    rw [schedulerTick_sched, if_pos ⟨rfl, hidle, (h.links _ hcurr).current rfl hidle hshort⟩]
  have hshare : s.current.afterTick.share + 1 = s.current.share :=
    Task.share_afterTick hok hshort hslice
  refine h.aged hstep trivial hexit (F.ticks + 1) (fun t ht hs => ?_) ?_
  · by_cases hne : t = s.rq.curr
    · subst hne
      rw [htick] at hs ⊢
      exact Task.one_le_afterTick hok hslice hs
    · rw [(hothers t ht hne).timeSlice]
      exact h.slice t ht ((hothers t ht hne).shortTask_iff.mp hs)
  · have hnew : (s'.task s.rq.curr).share = s.current.afterTick.share := congrArg _ htick
    rw [hnew] at hsum
    change _ + s.current.share = _ at hsum
    unfold shares
    omega

/-! ### A fork by a member -/

/-- What the parent and the child have after a split in time is what the parent had. -/
theorem fork_shares (h : FamilyInv r (s, F)) (hfork : Step s .doForkSplit s')
    (hf : s.forking = some f) (hcurr : s.rq.curr ∈ F.members)
    (hintime : (s.task f.child).ShortTask → s.current.ShortTask) :
    (s'.task f.child).share + (s'.task s.rq.curr).share = s.current.share := by
  have hchild := doForkSplit_child_sched hfork hf
  obtain ⟨f', hf', -, -, hcopy, -⟩ := doForkSplit_step hfork
  obtain rfl := Option.some.inj (hf.symm.trans hf')
  have hok := h.ok_member hcurr
  by_cases hshort : s.current.ShortTask
  swap
  · -- neither of the two is SHORT, and other slices do not count
    have hnew : ¬(s'.task s.rq.curr).ShortTask := fun hc =>
      hshort ((h.ages hfork trivial hcurr).short hc)
    have hnew' : ¬(s'.task f.child).ShortTask := by
      rw [hchild]
      exact fun hc => hshort (hintime hc)
    rw [TaskSched.share_of_not_short hnew, TaskSched.share_of_not_short hnew',
      TaskSched.share_of_not_short hshort]
  have hold : s.current.share = s.current.timeSlice.toNat := if_pos hshort
  have hchildShare : (s'.task f.child).share =
      (s.current.childSlice (s.task f.child)).toNat := by
    rw [hchild]
    exact if_pos (hcopy.short hshort)
  have hsplit := Task.split_slices (t := s.current) (p := s.task f.child) (fun _ => hshort)
    (.inl hshort.1)
  rw [hchildShare, hold, ← hsplit, Nat.add_left_cancel_iff]
  have htime := doForkSplit_curr_time hfork
  generalize (s'.task s.rq.curr).toTaskSched = p' at htime ⊢
  cases htime with
  | slice => exact if_pos hshort
  | expired _ _ harray =>
    exact absurd harray ((h.links _ hcurr).current rfl (h.ne_idle _ hcurr) hshort)
  | tick _ hslice =>
    -- the last jiffy went to the child, and the tick makes the parent overdue
    have hrt : ¬s.current.RtTask := hok.not_rtTask (.inr hshort.1)
    have hover := Task.not_short_afterTick_last
      (u := { s.task s.rq.curr with timeSlice := 1, justGotForked := 0 }) hrt hshort rfl
    rw [hslice]
    exact TaskSched.share_of_not_short hover

/-- A parent that is SHORT after the split has a jiffy left. -/
theorem one_le_forked (h : FamilyInv r (s, F)) (hfork : Step s .doForkSplit s')
    (hcurr : s.rq.curr ∈ F.members) (hshort : (s'.task s.rq.curr).ShortTask) :
    1 ≤ (s'.task s.rq.curr).timeSlice.toNat := by
  have hold := (h.ages hfork trivial hcurr).short hshort
  have hok := h.ok_member hcurr
  have htime := doForkSplit_curr_time hfork
  generalize (s'.task s.rq.curr).toTaskSched = p' at htime hshort ⊢
  cases htime with
  | slice _ hhalf => exact slice_pos.mpr hhalf
  | expired => exact le_rfl
  | tick =>
    have hrt : ¬s.current.RtTask := hok.not_rtTask (.inr hold.1)
    exact absurd hshort (Task.not_short_afterTick_last
      (u := { s.task s.rq.curr with timeSlice := 1, justGotForked := 0 }) hrt hold rfl)

theorem ne_child (h : FamilyInv r (s, F)) (hfork : Step s .doForkSplit s')
    (hf : s.forking = some f) (ht : t ∈ F.members) : t ≠ f.child :=
  ne_child_of_ownsSlice hfork hf (h.owns t ht)

theorem fork_others (h : FamilyInv r (s, F)) (hfork : Step s .doForkSplit s')
    (ht : t ∈ F.members) (hne : t ≠ s.rq.curr) :
    SameTime (s.task t).toTaskSched (s'.task t).toTaskSched :=
  sameTime_of_untouched hfork (F := F) trivial ht ⟨hne, fun _ hf => h.ne_child hfork hf ht⟩

/-- The family has as much after a split in time as before. -/
theorem fork_total (h : FamilyInv r (s, F)) (hfork : Step s .doForkSplit s')
    (hf : s.forking = some f) (hcurr : s.rq.curr ∈ F.members)
    (hintime : (s.task f.child).ShortTask → s.current.ShortTask) :
    s'.shares (insert f.child F.members) = s.shares F.members := by
  have hnew : f.child ∉ F.members := fun hc => h.ne_child hfork hf hc rfl
  have hshare := h.fork_shares hfork hf hcurr hintime
  have hchange := sum_change_one (fun t => (s.task t).share)
    (fun t => (s'.task t).share) hcurr fun t ht hne => (h.fork_others hfork ht hne).share_eq
  change _ + s.current.share = _ at hchange
  rw [shares, Finset.sum_insert hnew, shares]
  omega

/-- Both halves of a split in time have a jiffy. -/
theorem fork_slice (h : FamilyInv r (s, F)) (hfork : Step s .doForkSplit s')
    (hf : s.forking = some f) (hcurr : s.rq.curr ∈ F.members)
    (hintime : (s.task f.child).ShortTask → s.current.ShortTask)
    (ht : t ∈ insert f.child F.members) (hshort : (s'.task t).ShortTask) :
    1 ≤ (s'.task t).timeSlice.toNat := by
  by_cases htc : t = f.child
  · -- the child gets the greater half
    subst htc
    rw [doForkSplit_child_sched hfork hf] at hshort ⊢
    have hold : s.current.ShortTask := hintime hshort
    have hslice : 1 ≤ s.current.timeSlice.toNat := h.slice _ hcurr hold
    show 1 ≤ (s.current.childSlice (s.task f.child)).toNat
    rw [Task.toNat_childSlice_short hold]
    omega
  have hmem := (Finset.mem_insert.mp ht).resolve_left htc
  by_cases hne : t = s.rq.curr
  · subst hne
    exact h.one_le_forked hfork hcurr hshort
  · have hsame := h.fork_others hfork hmem hne
    rw [hsame.timeSlice]
    exact h.slice t hmem (hsame.shortTask_iff.mp hshort)

/-- The child of a SHORT parent is SHORT. -/
theorem fork_kids (h : FamilyInv r (s, F)) (hfork : Step s .doForkSplit s')
    (hf : s.forking = some f) (hcurr : s.rq.curr ∈ F.members) {c : TaskId}
    (hc : c ∈ insert f.child F.members)
    (hforker : Function.update F.forker f.child (some s.rq.curr) c = some t)
    (hshort : (s'.task t).ShortTask) (hfirst : (s'.task c).firstTimeSlice ≠ 0) :
    (s'.task c).ShortTask := by
  by_cases hcc : c = f.child
  · subst hcc
    rw [Function.update_self, Option.some.injEq] at hforker
    subst hforker
    have hold := (h.ages hfork trivial hcurr).short hshort
    obtain ⟨f', hf', -, -, hcopy, -⟩ := doForkSplit_step hfork
    obtain rfl := Option.some.inj (hf.symm.trans hf')
    rw [doForkSplit_child_sched hfork hf]
    exact hcopy.short hold
  · rw [Function.update_of_ne hcc] at hforker
    have hmem := (Finset.mem_insert.mp hc).resolve_left hcc
    exact h.kids_step hfork trivial hmem hforker hshort hfirst

/-- A split by a member adds the child to the family. -/
theorem fork (h : FamilyInv r (s, F)) (hfork : Step s .doForkSplit s')
    (hf : s.forking = some f) (hcurr : s.rq.curr ∈ F.members)
    (hintime : (s.task f.child).ShortTask → s.current.ShortTask) :
    FamilyInv r (s', F.fork s.rq.curr f.child) := by
  have hlinked := h.linked.step hfork
  have hsum := h.fork_total hfork hf hcurr hintime
  obtain ⟨f', hf', hsplit, -, hcopy, -⟩ := doForkSplit_step hfork
  obtain rfl := Option.some.inj (hf.symm.trans hf')
  constructor
  · exact hlinked
  · intro t ht
    rcases Finset.mem_insert.mp ht with rfl | ht
    · exact (h.pending f hf hsplit).step h.linked hfork nofun
    · exact h.links_step hfork trivial ht
  · exact h.pending_step hfork trivial
  · refine ⟨h.copied.1.step hfork, fun f' hf' hunsplit => ?_⟩
    obtain ⟨f'', -, -, -, -, -, rfl⟩ := doForkSplit_step hfork
    have hf' : some { f'' with split := true } = some f' := hf'
    rw [← Option.some.inj hf'] at hunsplit
    cases hunsplit
  · intro t ht
    rcases Finset.mem_insert.mp ht with rfl | ht
    · exact ownsSlice_child hfork hf
    · exact ownsSlice_step hfork (fun hc => nomatch hc) (h.owns t ht)
  · intro t ht
    show t ≠ s'.rq.idle
    rw [step_idle hfork]
    rcases Finset.mem_insert.mp ht with rfl | ht
    · exact hcopy.ne_idle
    · exact h.ne_idle t ht
  · exact fun t ht => taskOk_step hfork h.ok ht
  · exact fun t ht hshort => h.fork_slice hfork hf hcurr hintime ht hshort
  · intro c t hc
    simp only [Family.fork] at hc ⊢
    by_cases hcc : c = f.child
    · subst hcc
      rw [Function.update_self, Option.some.injEq] at hc
      exact Finset.mem_insert_of_mem (hc ▸ hcurr)
    · rw [Function.update_of_ne hcc] at hc
      exact Finset.mem_insert_of_mem (h.forker_mem c t hc)
  · exact fun c hc t hforker => h.fork_kids hfork hf hcurr hc hforker
  · show F.ticks + s'.shares (insert f.child F.members) ≤ r
    rw [hsum]
    exact h.total
  · intro hreaped
    show F.ticks + s'.shares (insert f.child F.members) = r
    rw [hsum]
    exact h.balanced hreaped

/-- **A late split** adds what was copied: the parent has nothing left of the SHORT time, and the
child of an overdue parent has the slice that the parent had at the copy. -/
theorem late_total (h : FamilyInv r (s, F)) (hfork : Step s .doForkSplit s')
    (hf : s.forking = some f) (hlate : ¬SplitsInTime (s, F) .doForkSplit) :
    s'.shares (s.growFamily .doForkSplit F).members =
        s.shares F.members + (s'.task f.child).share ∧
      (s.current.policy = .short → 1 ≤ (s'.task f.child).share) := by
  simp only [SplitsInTime, Classical.not_imp, not_forall] at hlate
  obtain ⟨hcurr, f', hf', hchildShort, hshort⟩ := hlate
  obtain rfl := Option.some.inj (hf.symm.trans hf')
  have hnew : f.child ∉ F.members := fun hc => h.ne_child hfork hf hc rfl
  have hnot : ¬(s'.task s.rq.curr).ShortTask := fun hc =>
    hshort ((h.ages hfork trivial hcurr).short hc)
  have hchange := sum_change_one (fun t => (s.task t).share)
    (fun t => (s'.task t).share) hcurr fun t ht hne => (h.fork_others hfork ht hne).share_eq
  rw [TaskSched.share_of_not_short hnot, TaskSched.share_of_not_short hshort] at hchange
  constructor
  · simp only [growFamily, hf, if_pos hcurr, Family.fork]
    rw [shares, Finset.sum_insert hnew, shares]
    omega
  · intro hpolicy
    obtain ⟨f', hf', hunsplit, -⟩ := doForkSplit_step hfork
    obtain rfl := Option.some.inj (hf.symm.trans hf')
    have hslice := h.copied.2 f hf hunsplit hcurr hchildShort
    have hkeeps : s.current.childSlice (s.task f.child) = (s.task f.child).timeSlice := by
      rw [Task.childSlice, if_pos hpolicy, if_neg hshort]
    rw [doForkSplit_child_sched hfork hf, TaskSched.share, if_pos hchildShort, hkeeps]
    exact hslice

/-! ### A member reaps a child -/

/-- A parent that is SHORT gets no more than the share of the child, and has a jiffy left: the sum
of the two does not wrap around. -/
theorem reapSlice_range {p : TaskId} (h : FamilyInv r (s, F)) (hp : p ∈ F.members)
    (hcurr : s.rq.curr ∈ F.members) (hne : p ≠ s.rq.curr) (hforker : F.forker p = some s.rq.curr)
    (hshort : s.current.ShortTask) (hr : r < 2 ^ 32) :
    1 ≤ ((s.task p).reapSlice s.current).toNat ∧
      ((s.task p).reapSlice s.current).toNat ≤ s.current.share + (s.task p).share := by
  have hslice : 1 ≤ s.current.timeSlice.toNat := h.slice _ hcurr hshort
  have hcurrShare : s.current.share = s.current.timeSlice.toNat := if_pos hshort
  have hle := (s.task p).reapSlice_le s.current
  split at hle
  swap
  · next hnot =>
    rw [Task.reapSlice, if_neg hnot] at hle ⊢
    omega
  next hfirst =>
  have hchildShare : (s.task p).share = (s.task p).timeSlice.toNat :=
    if_pos (h.kids p hp _ hforker hshort hfirst)
  -- the two are different members
  have hboth : (s.task p).share + s.current.share ≤ s.shares F.members := by
    have hmem : s.rq.curr ∈ F.members.erase p := Finset.mem_erase.mpr ⟨hne.symm, hcurr⟩
    have hother : s.current.share ≤ ∑ t ∈ F.members.erase p, (s.task t).share :=
      Finset.single_le_sum (f := fun t => (s.task t).share) (fun _ _ => Nat.zero_le _) hmem
    have hsum := Finset.add_sum_erase F.members (fun t => (s.task t).share) hp
    unfold shares
    omega
  have htotal : F.ticks + s.shares F.members ≤ r := h.total
  have hmax := maxTimeslice_range.1
  have hreap := toNat_reapSlice (t := s.current) hfirst (by omega)
  omega

/-- Reaping leaves the members no more than they had. -/
theorem exit_shares {p : TaskId} (h : FamilyInv r (s, F)) (hexit : Step s (.schedExit p) s')
    (hfamily : LeavesFamily (s, F) (.schedExit p)) (hp : p ∈ F.members) (hr : r < 2 ^ 32) :
    s'.shares (F.members.erase p) ≤ s.shares F.members := by
  have hne : p ≠ s.rq.curr := hexit.1.2.2.2.1
  have hothers : ∀ t ∈ F.members.erase p, t ≠ s.rq.curr → (s'.task t).share = (s.task t).share :=
    fun t ht hcurr =>
      (sameTime_of_untouched hexit hfamily (Finset.mem_of_mem_erase ht) hcurr).share_eq
  have hold := Finset.add_sum_erase F.members (fun t => (s.task t).share) hp
  by_cases hcurr : s.rq.curr ∈ F.members
  swap
  · have hsame : s'.shares (F.members.erase p) = ∑ t ∈ F.members.erase p, (s.task t).share := by
      refine Finset.sum_congr rfl fun t ht => hothers t ht ?_
      rintro rfl
      exact hcurr (Finset.mem_of_mem_erase ht)
    unfold shares at hsame ⊢
    omega
  have hmem : s.rq.curr ∈ F.members.erase p := Finset.mem_erase.mpr ⟨hne.symm, hcurr⟩
  have hchange := sum_change_one (fun t => (s.task t).share)
    (fun t => (s'.task t).share) hmem hothers
  have hsched := schedExit_curr_sched hexit
  have hparent : (s'.task s.rq.curr).share ≤ s.current.share + (s.task p).share := by
    by_cases hshort : s.current.ShortTask
    swap
    · have hnew : ¬(s'.task s.rq.curr).ShortTask := by rwa [hsched]
      rw [TaskSched.share_of_not_short hnew]
      exact Nat.zero_le _
    · have hrange := h.reapSlice_range hp hcurr hne (hfamily hcurr).2 hshort hr
      have hshare : (s'.task s.rq.curr).share = ((s.task p).reapSlice s.current).toNat := by
        rw [hsched]
        exact if_pos hshort
      rw [hshare]
      exact hrange.2
  change _ + s.current.share = _ at hchange
  unfold shares
  omega

/-- A member that is reaped by its parent leaves the family, with what it had left. -/
theorem exit {p : TaskId} (h : FamilyInv r (s, F)) (hexit : Step s (.schedExit p) s')
    (hfamily : LeavesFamily (s, F) (.schedExit p)) (hp : p ∈ F.members) (hr : r < 2 ^ 32) :
    FamilyInv r (s', s.growFamily (.schedExit p) F) := by
  have hne : p ≠ s.rq.curr := hexit.1.2.2.2.1
  have hmem : ∀ t ∈ F.members.erase p, t ∈ F.members := fun _ ht => Finset.mem_of_mem_erase ht
  rw [growFamily, if_pos hp]
  constructor
  · exact h.linked.step hexit
  · intro t ht
    exact h.links_step hexit hfamily (hmem t ht)
  · exact h.pending_step hexit hfamily
  · refine ⟨h.copied.1.step hexit, fun f hf => ?_⟩
    have hforking : s'.forking = s.forking := by
      obtain rfl := Option.some.inj hexit.2
      rfl
    rw [hforking, hexit.1.1.1] at hf
    cases hf
  · intro t ht
    refine ownsSlice_step hexit (fun hc => ?_) (h.owns t (hmem t ht))
    exact Finset.ne_of_mem_erase ht (Op.schedExit.inj hc).symm
  · intro t ht
    show t ≠ s'.rq.idle
    rw [step_idle hexit]
    exact h.ne_idle t (hmem t ht)
  · exact fun t ht => taskOk_step hexit h.ok ht
  · intro t ht hshort
    dsimp only at ht hshort ⊢
    have ht' := hmem t ht
    by_cases hcurr : t = s.rq.curr
    · subst hcurr
      have hold := (h.ages hexit hfamily ht').short hshort
      rw [schedExit_curr_sched hexit]
      exact (h.reapSlice_range hp ht' hne (hfamily ht').2 hold hr).1
    · have hsame := sameTime_of_untouched hexit hfamily ht' hcurr
      rw [hsame.timeSlice]
      exact h.slice t ht' (hsame.shortTask_iff.mp hshort)
  · intro c t hforker
    dsimp only at hforker ⊢
    split at hforker
    · cases hforker
    · next hkept =>
      refine Finset.mem_erase.mpr ⟨?_, h.forker_mem c t hforker⟩
      rintro rfl
      exact hkept (.inr hforker)
  · intro c hc t hforker hshort hfirst
    dsimp only at hc hforker hshort hfirst ⊢
    split at hforker
    · cases hforker
    · exact h.kids_step hexit hfamily (hmem c hc) hforker hshort hfirst
  · have htotal : F.ticks + s.shares F.members ≤ r := h.total
    have hless := h.exit_shares hexit hfamily hp hr
    show F.ticks + s'.shares (F.members.erase p) ≤ r
    omega
  · exact nofun

/-- **The family** keeps the law over every step that leaves it alone and splits in time. -/
theorem step {y : Sys × Family} (h : FamilyInv r (s, F)) (hr : r < 2 ^ 32)
    (hstep : Ghost Step growFamily (s, F) op y) (hkeeps : KeepsFamily (s, F) op) :
    FamilyInv r y := by
  obtain ⟨s', F'⟩ := y
  obtain ⟨hstep, rfl⟩ := hstep
  obtain ⟨hfamily, hintime⟩ := hkeeps
  dsimp only at hstep ⊢
  cases op with
  | schedulerTick => exact h.schedulerTick hstep
  | doFork cloneFlags env =>
    refine h.untouched hstep trivial (fun _ _ hc => nomatch hc) fun t ht => .inr ?_
    exact ne_child_of_isTask hstep (h.owns t ht).isTask _ _ rfl
  | doForkSplit =>
    obtain ⟨f, hf, -⟩ := doForkSplit_step hstep
    simp only [growFamily, hf]
    by_cases hcurr : s.rq.curr ∈ F.members
    · rw [if_pos hcurr]
      exact h.fork hstep hf hcurr (hintime hcurr f hf)
    · rw [if_neg hcurr]
      refine h.untouched hstep trivial (fun _ _ hc => nomatch hc) fun t ht => ⟨?_, ?_⟩
      · rintro rfl
        exact hcurr ht
      · exact fun _ hf => h.ne_child hstep hf ht
  | schedExit p =>
    by_cases hp : p ∈ F.members
    · exact h.exit hstep hfamily hp hr
    · rw [growFamily, if_neg hp]
      refine h.untouched hstep hfamily (fun q hq hc => ?_) fun t ht hcurr => ?_
      · exact hp ((Op.schedExit.inj hc) ▸ hq)
      · exact hp (hfamily (hcurr ▸ ht)).1
  | _ => exact h.untouched hstep hfamily (fun _ _ hc => nomatch hc) fun _ _ => trivial

end FamilyInv

/-! ## Runs -/

/-- In a run from a consistent runqueue the tasks are linked where they say, and the priorities of
each fit its policy. -/
theorem linked_of_run {ops : List Op} (hinv : s.RqInv) (hrun : Run Step s ops s') :
    s'.Linked ∧ ∀ t, t ≠ s'.rq.idle → TaskOk (s'.task t).toTaskSched := by
  refine hrun.invariant
    (P := fun s => s.Linked ∧ ∀ t, t ≠ s.rq.idle → TaskOk (s.task t).toTaskSched)
    (fun _ _ _ ⟨hlinked, hok⟩ hstep => ⟨hlinked.step hstep, fun _ ht => taskOk_step hstep hok ht⟩)
    ⟨hinv.linked, fun t ht => (hinv.tasks t ht).ok⟩

/-- A step with the family that leaves it alone and splits in time. -/
abbrev FamilyStep : Sys × Family → Op → Sys × Family → Prop :=
  Guarded KeepsFamily (Ghost Step growFamily)

variable {s₀ s₁ : Sys} {p : TaskId}

/-- `idle` cannot be found by its pid. -/
theorem ne_idle_of_make {pid policy : ℤ} {param : UserParam}
    (hmake : Step s (.setscheduler pid policy param) s₁) (hnot : ¬(s.task p).ShortTask)
    (hshort : (s₁.task p).ShortTask) : p ≠ s.rq.idle := by
  rintro rfl
  have htime := step_time hmake s.rq.idle
  generalize (s₁.task s.rq.idle).toTaskSched = p' at htime hshort
  cases htime with
  | same _ hsame => exact hnot (hsame.shortTask_iff.mp hshort)
  | adjust target | make target | setPolicy target => exact hmake.1.2 target.found

/-- A task that was just made SHORT is a family of its own. -/
theorem familyInv_of_make {pid policy : ℤ} {param : UserParam} (hlinked : s.Linked)
    (hok : ∀ t, t ≠ s.rq.idle → TaskOk (s.task t).toTaskSched) (htask : s.IsTask p)
    (hother : (s.task p).OtherTask) (hmake : Step s (.setscheduler pid policy param) s₁)
    (hshort : (s₁.task p).ShortTask) (hr : (s₁.task p).requestedTime.toInt = r) : FamilyInv r (s₁, .root p) := by
  have hnot : ¬(s.task p).ShortTask := fun hc => absurd (hother.symm.trans hc.1) (by decide)
  have hok' := hok p (ne_idle_of_make hmake hnot hshort)
  have hrunning := runningInv_of_make hok' htask hother hmake hshort
  have hhas := hrunning.run hshort
  have hslice : ((s₁.task p).timeSlice.toNat : ℤ) + (0 : ℕ) = (s₁.task p).requestedTime.toInt :=
    hhas.slice_eq
  have hforking : s.forking = none := hmake.1.1
  have hroot : ∀ t ∈ (Family.root p).members, t = p := fun t ht => Finset.mem_singleton.mp ht
  have hshares : s₁.shares (Family.root p).members = r := by
    rw [shares, Family.root, Finset.sum_singleton, TaskSched.share, if_pos hshort]
    omega
  constructor
  · exact hlinked.step hmake
  · intro t ht
    rw [hroot t ht]
    exact .of_becomes_short hlinked hmake hnot hshort
  · refine PendingLinks.step (fun f hf => ?_) hlinked hmake fun p nice hc => by cases hc
    rw [hforking] at hf
    cases hf
  · refine ⟨(copyInv_of_not_forking hforking).step hmake, ?_⟩
    refine PendingSlice.step (fun f hf => ?_) (copyInv_of_not_forking hforking) ?_ hmake
    · rw [hforking] at hf
      cases hf
    · intro hcurr hc
      have heq : s.rq.curr = p := Finset.mem_singleton.mp hcurr
      rw [current, heq] at hc
      exact absurd hc hnot
  · intro t ht
    rw [hroot t ht]
    refine ownsSlice_step hmake (fun hc => ?_) (ownsSlice_of_isTask hforking htask)
    cases hc
  · intro t ht
    rw [hroot t ht]
    exact hrunning.ne_idle
  · exact fun t ht => taskOk_step hmake hok ht
  · intro t ht _
    rw [hroot t ht]
    exact hhas.slice_ge
  · intro c t hc
    cases hc
  · intro c _ t hc
    cases hc
  · show 0 + s₁.shares (Family.root p).members ≤ r
    omega
  · intro _
    show 0 + s₁.shares (Family.root p).members = r
    omega

/-- **Forking cannot multiply SHORT time** as long as every split comes in time. A family whose
first task was made SHORT with `r` jiffies receives at most `r` ticks while SHORT and not overdue,
and until the first reaping the ticks and what the members have left add up to `r`. The first split
that is late adds to that what its child has copied. -/
theorem family_of_run {ops₀ ops : List Op} {pid policy : ℤ} {param : UserParam}
    (hinit : s₀.RqInv) (hbefore : Run Step s₀ ops₀ s) (htask : s.IsTask p)
    (hother : (s.task p).OtherTask) (hmake : Step s (.setscheduler pid policy param) s₁)
    (hshort : (s₁.task p).ShortTask) (hr : (s₁.task p).requestedTime.toInt = r)
    (hrun : Run FamilyStep (s₁, .root p) ops (s', F)) :
    (F.ticks ≤ r ∧ (F.reaped = false → F.ticks + s'.shares F.members = r)) ∧
      ∀ f s'', s'.forking = some f → Step s' .doForkSplit s'' →
        ¬SplitsInTime (s', F) .doForkSplit → F.reaped = false →
        F.ticks + s''.shares (s'.growFamily .doForkSplit F).members =
            r + (s''.task f.child).share ∧
          (s'.current.policy = .short → 1 ≤ (s''.task f.child).share) := by
  obtain ⟨hlinked, hok⟩ := linked_of_run hinit hbefore
  have hmax : r < 2 ^ 32 := by
    have hlt := (s₁.task p).requestedTime.toInt_lt
    omega
  have hinv : FamilyInv r (s', F) := by
    refine hrun.invariant (P := FamilyInv r) (fun x op y h hstep => ?_)
      (familyInv_of_make hlinked hok htask hother hmake hshort hr)
    exact h.step hmax hstep.2 hstep.1
  refine ⟨⟨(Nat.le_add_right _ _).trans hinv.total, hinv.balanced⟩, ?_⟩
  intro f s'' hf hsplit hlate hreaped
  obtain ⟨htotal, hshare⟩ := hinv.late_total hsplit hf hlate
  have hbalanced : F.ticks + s'.shares F.members = r := hinv.balanced hreaped
  refine ⟨?_, hshare⟩
  rw [htotal, ← Nat.add_assoc, hbalanced]

omit [Param] in
/-- A task with 4 jiffies uses one between the copy and the split, shares the rest with the child
and sleeps while the child runs for one. -/
theorem family_of_run_four :
    let ops : List Op := [.doFork 0 ⟨2, 2, 0⟩, .schedulerTick, .doForkSplit, .doForkWake,
      .setCurrentState .interruptible, .schedule, .schedulerTick]
    ∃ s₁ s' F, @Step hz100 privilegedTask (.setscheduler 0 5 (.valid ⟨0, 40⟩)) s₁ ∧
      Run (@FamilyStep hz100) (s₁, .root 1) ops (s', F) ∧ F.members = {1, 2} ∧ F.ticks = 2 ∧
      F.ticks + s'.shares {1, 2} = 4 := by
  intro ops
  let run := runWith (@stepIf hz100 _ KeepsFamily _ growFamily)
  let make : List Op := [.setscheduler 0 5 (.valid ⟨0, 40⟩)]
  have hmake : ((@runOps hz100 make privilegedTask).map fun s =>
      decide ((s.task 1).ShortTask ∧ (s.task 1).requestedTime.toInt = 4)) = some true := by
    decide +kernel
  have hall : ((@runOps hz100 make privilegedTask >>= fun s => run ops (s, .root 1)).map fun x =>
      (x.2.members, x.2.ticks, x.2.reaped)) = some ({1, 2}, 2, false) := by
    decide +kernel
  obtain ⟨s₁, hs₁, hshort⟩ := Option.map_eq_some_iff.mp hmake
  obtain ⟨hshort, hr⟩ := of_decide_eq_true hshort
  simp only [hs₁, Option.bind_eq_bind, Option.bind_some] at hall
  obtain ⟨⟨s', F⟩, hx, hval⟩ := Option.map_eq_some_iff.mp hall
  simp only [Prod.mk.injEq] at hval
  obtain ⟨hmembers, hticks, hreaped⟩ := hval
  have hrun : Run (@FamilyStep hz100) (s₁, .root 1) ops (s', F) :=
    (@guarded_ghost_run_iff hz100 _ KeepsFamily _ _ _ _ _).mpr hx
  have hstep := (@runOps_single hz100 _ _ _).mp hs₁
  obtain ⟨⟨-, hsum⟩, -⟩ := @family_of_run hz100 privilegedTask s' F 4 privilegedTask s₁ 1 [] ops 0 5 _
    (rqInv_ofList (by decide) (by decide)) (Run.nil _) (.inl (by decide)) (by decide) hstep hshort
    hr hrun
  refine ⟨s₁, s', F, hstep, hrun, hmembers, hticks, ?_⟩
  rw [← hmembers]
  exact hsum hreaped

omit [Param] in
/-- A task with one jiffy forks, and a tick before `__cli` makes it overdue. Its child has the jiffy
that was copied, and the family receives two ticks. -/
theorem family_multiplied :
    let ops : List Op := [.doFork 0 ⟨2, 2, 0⟩, .schedulerTick, .doForkSplit, .doForkWake,
      .setCurrentState .interruptible, .schedule, .schedulerTick]
    ∃ s₁ s' F, privilegedTask.RqInv ∧
      @Step hz100 privilegedTask (.setscheduler 0 5 (.valid ⟨0, 10⟩)) s₁ ∧
      (s₁.task 1).ShortTask ∧ (s₁.task 1).timeSlice = 1 ∧ (s₁.task 1).requestedTime.toInt = 1 ∧
      Run (Guarded LeavesFamily (Ghost (@Step hz100) growFamily)) (s₁, .root 1) ops (s', F) ∧
      F.reaped = false ∧ F.ticks = 2 := by
  intro ops
  let make : List Op := [.setscheduler 0 5 (.valid ⟨0, 10⟩)]
  have hmake : ((@runOps hz100 make privilegedTask).map fun s => decide ((s.task 1).ShortTask ∧
      (s.task 1).timeSlice = 1 ∧ (s.task 1).requestedTime.toInt = 1)) = some true := by
    decide +kernel
  have hall : ((@runOps hz100 make privilegedTask >>= fun s =>
      runWith (@stepIf hz100 _ LeavesFamily _ growFamily) ops (s, .root 1)).map fun x =>
      (x.2.reaped, x.2.ticks)) = some (false, 2) := by
    decide +kernel
  obtain ⟨s₁, hs₁, hshort⟩ := Option.map_eq_some_iff.mp hmake
  obtain ⟨hshort, hslice, hr⟩ := of_decide_eq_true hshort
  simp only [hs₁, Option.bind_eq_bind, Option.bind_some] at hall
  obtain ⟨⟨s', F⟩, hx, hval⟩ := Option.map_eq_some_iff.mp hall
  simp only [Prod.mk.injEq] at hval
  exact ⟨s₁, s', F, rqInv_ofList (by decide) (by decide), (@runOps_single hz100 _ _ _).mp hs₁,
    hshort, hslice, hr, (@guarded_ghost_run_iff hz100 _ LeavesFamily _ _ _ _ _).mpr hx, hval⟩

end ShortSched
