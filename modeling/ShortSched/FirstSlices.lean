import ShortSched.ForkReap
import ShortSched.General.Ledger

/-!
# What a child brings back

`sched_exit` gives the parent what the child has left of its first time slice, in the belief that
the parent gave that slice away. Each fork is entered into a ledger with what it cost the parent.
A child with its first slice then has at most what it was given, less what it gave to children
of its own.
-/

namespace ShortSched

open General Sys

variable [Param]

namespace Sys

/-- What the split costs `current`, for the child. -/
def giftOf (s : Sys) (child : TaskId) : Gift TaskId where
  giver := s.rq.curr
  taker := child
  had := s.current.timeSlice.toNat
  left := match s.doForkSplit with
    | some s' => (s'.task s.rq.curr).timeSlice.toNat
    | none => 0

/-- The ledger after an operation. A fork closes the accounts of the task that had the structure
of the child before, and its split is a gift. -/
def recordGift (s : Sys) : Op → List (Gift TaskId) → List (Gift TaskId)
  | .doFork cloneFlags env, gs =>
    if s.ForkRefused cloneFlags env then gs
    else gs.filter fun g => g.giver ≠ env.child ∧ g.taker ≠ env.child
  | .doForkSplit, gs => match s.forking with
    | some f => s.giftOf f.child :: gs
    | none => gs
  | .schedExit p, gs => gs.filter fun g => g.taker ≠ p
  | _, gs => gs

/-! ## The steps that break the law -/

/-- A SHORT request that is granted and raises a first time slice. -/
def RaisesFirstSlice (s : Sys) (pid policy : ℤ) : UserParam → Prop
  | .valid lp => ∃ p ∈ s.findProcessByPid pid, (s.task p).firstTimeSlice ≠ 0 ∧
      s.requestedPolicy p policy = some .short ∧ s.MayShorten p ∧ lp.requestedTime ≤ 3000 ∧
      ((s.task p).policy = .short ∧ (s.task p).timeSlice < (s.task p).timeSlice +
          (changeMsToJiffis lp.requestedTime - (s.task p).requestedTime).toUInt32 ∨
        (s.task p).policy = .other ∧
          (s.task p).timeSlice < (changeMsToJiffis lp.requestedTime).toUInt32)
  | _ => False

/-- A fork that costs the parent nothing: the parent is overdue, or it shares its last jiffy and
the tick that should end its slice is not charged. -/
def ForksForFree (s : Sys) : Prop :=
  (s.current.policy = .short ∧ ¬s.current.ShortTask) ∧
      (s.current.firstTimeSlice ≠ 0 ∨ 2 ≤ s.current.timeSlice.toNat) ∨
    s.current.firstTimeSlice ≠ 0 ∧ s.current.timeSlice = 1 ∧
      (s.current.array = some s.rq.expired ∨ s.current.RtTask ∧ s.current.policy ≠ .rr)

/-- A task that has its first slice reaps another task's child that has its first slice. -/
def ReapsForeign (s : Sys) (p : TaskId) (gs : List (Gift TaskId)) : Prop :=
  s.current.firstTimeSlice ≠ 0 ∧ (s.task p).firstTimeSlice ≠ 0 ∧
    ∀ g ∈ gs, ¬(g.taker = p ∧ g.giver = s.rq.curr)

/-- A step that adds to a first time slice what nobody gave away. -/
def Generates (x : Sys × List (Gift TaskId)) : Op → Prop
  | .schedulerTick => x.1.current.firstTimeSlice ≠ 0 ∧ x.1.current.timeSlice = 0
  | .setscheduler pid policy param => x.1.RaisesFirstSlice pid policy param
  | .doForkSplit => x.1.ForksForFree
  | .schedExit p => x.1.ReapsForeign p x.2
  | _ => False

instance (s : Sys) (pid policy : ℤ) : DecidablePred (s.RaisesFirstSlice pid policy)
  | .valid _ => inferInstanceAs (Decidable (∃ p ∈ s.findProcessByPid pid, _))
  | .null | .fault => inferInstanceAs (Decidable False)

instance (x : Sys × List (Gift TaskId)) : DecidablePred (Generates x)
  | .schedulerTick => inferInstanceAs (Decidable (_ ∧ _))
  | .setscheduler pid policy param =>
    inferInstanceAs (Decidable (x.1.RaisesFirstSlice pid policy param))
  | .doForkSplit => inferInstanceAs (Decidable (_ ∧ _ ∨ _))
  | .schedExit _ => inferInstanceAs (Decidable (_ ∧ _ ∧ ∀ g ∈ x.2, _))
  | .tryToWakeUp _ _ | .schedule | .setUserNice _ _ | .sysSchedYield | .doFork _ _ | .doForkWake
  | .vforkReturn | .doExit _ | .setCurrentState _ | .setSigpending _ _ | .setJiffies _ =>
    inferInstanceAs (Decidable False)

end Sys

variable {s s' : Sys} {op : Op} {t : TaskId} {f : PendingFork} {gs : List (Gift TaskId)}

/-! ## First slices only shrink -/

omit [Param] in
/-- A first slice is an old one, and not more of it. -/
def FirstSliceShrinks (p p' : TaskSched) : Prop :=
  p'.firstTimeSlice ≠ 0 → p.firstTimeSlice ≠ 0 ∧ p'.timeSlice.toNat ≤ p.timeSlice.toNat

omit [Param] in
theorem SameTime.firstSliceShrinks {p p' : TaskSched} (h : SameTime p p') :
    FirstSliceShrinks p p' := by
  intro hfirst
  rw [h.firstTimeSlice] at hfirst
  rw [h.timeSlice]
  exact ⟨hfirst, le_rfl⟩

theorem setscheduler_firstSlice {pid policy : ℤ} {param : UserParam} {r : ℤ}
    (hcall : s.setscheduler pid policy param = some (r, s'))
    (hclean : ¬s.RaisesFirstSlice pid policy param) (t : TaskId) :
    FirstSliceShrinks (s.task t).toTaskSched (s'.task t).toTaskSched := by
  cases SetschedCase.of_eq_some hcall with
  | refused _ hsame =>
    rw [hsame.sameTasks.sched]
    exact (SameTime.refl _).firstSliceShrinks
  | @adjusted p lp target hshort hpolicy hle hgt hmay =>
    rw [(SameTasks.setTskNeedResched _ _).sched, modify_task]
    by_cases ht : t = p
    swap
    · rw [Function.update_of_ne ht]
      exact (SameTime.refl _).firstSliceShrinks
    subst ht
    rw [Function.update_self]
    intro hfirst
    refine ⟨hfirst, UInt32.le_iff_toNat_le.mp (UInt32.not_lt.mp fun hlt => hclean ?_)⟩
    have hrequest : s.requestedPolicy t policy = some .short := by
      unfold requestedPolicy
      split
      · rw [hshort]
      · next hneg => exact hpolicy.resolve_left hneg
    rw [target.param_eq]
    exact ⟨t, target.found, hfirst, hrequest, hmay, hle, .inl ⟨hshort, hlt⟩⟩
  | @madeShort p lp target hother hpolicy hle hge hmay =>
    rw [(SameTasks.setTskNeedResched _ _).sched]
    by_cases ht : t = p
    swap
    · rw [requeued_sched fun _ => rfl, if_neg ht]
      exact (SameTime.refl _).firstSliceShrinks
    subst ht
    have htime := SameTime.requeued (f := Task.makeShort lp) (fun _ => rfl) t s
    intro hfirst
    rw [htime.firstTimeSlice] at hfirst
    rw [htime.timeSlice]
    refine ⟨hfirst, UInt32.le_iff_toNat_le.mp (UInt32.not_lt.mp fun hlt => hclean ?_)⟩
    have hrequest : s.requestedPolicy t policy = some .short := by
      rw [requestedPolicy, if_neg (by omega), hpolicy.2]
    rw [target.param_eq]
    exact ⟨t, target.found, hfirst, hrequest, hmay, hle, .inr ⟨hother, hlt⟩⟩
  | @changed p lp policy' s₁ target hnot hnew _ _ hsame =>
    rw [← hsame.sameTasks.sched t]
    by_cases ht : t = p
    swap
    · rw [requeued_sched fun _ => rfl, if_neg ht]
      exact (SameTime.refl _).firstSliceShrinks
    subst ht
    -- the new policy leaves the slice as it was
    have htime := SameTime.requeued (f := Task.setPolicy policy' lp) (fun _ => rfl) t s₁
    intro hfirst
    rw [htime.firstTimeSlice] at hfirst
    rw [htime.timeSlice]
    exact ⟨hfirst, le_rfl⟩

/-- A tick takes a jiffy, if there is one. -/
theorem Task.afterTick_firstSlice {u : Task} (hsome : ¬(u.firstTimeSlice ≠ 0 ∧ u.timeSlice = 0)) :
    FirstSliceShrinks u.toTaskSched u.afterTick.toTaskSched := by
  have hless : u.firstTimeSlice ≠ 0 → (u.timeSlice - 1).toNat ≤ u.timeSlice.toNat := by
    intro hfirst
    have hpos := slice_pos.mpr fun hc => hsome ⟨hfirst, hc⟩
    rw [toNat_sub_one hpos]
    exact Nat.sub_le _ _
  intro hfirst
  by_cases hrt : u.RtTask
  · rw [afterTick, if_pos hrt] at hfirst ⊢
    by_cases hrr : u.policy = .rr
    swap
    · rw [if_neg hrr] at hfirst ⊢
      exact ⟨hfirst, le_rfl⟩
    rw [if_pos hrr] at hfirst ⊢
    split at hfirst
    · exact absurd rfl hfirst
    · next hslice =>
      rw [if_neg hslice]
      exact ⟨hfirst, hless hfirst⟩
  · by_cases hslice : u.timeSlice = 1
    · rw [afterTick_last hrt hslice] at hfirst
      exact absurd rfl hfirst
    · rw [afterTick_run hrt hslice] at hfirst ⊢
      exact ⟨hfirst, hless hfirst⟩

/-- The tick of a task that shares its last jiffy ends its slice, unless the task is FIFO. -/
theorem Task.afterTick_lastJiffy {u : Task} (hslice : u.timeSlice = 1)
    (hfirst : u.afterTick.firstTimeSlice ≠ 0) : u.RtTask ∧ u.policy ≠ .rr := by
  by_cases hrt : u.RtTask
  · refine ⟨hrt, fun hrr => hfirst ?_⟩
    rw [afterTick, if_pos hrt, if_pos hrr, if_pos (by rw [hslice]; rfl)]
  · rw [afterTick_last hrt hslice] at hfirst
    exact absurd rfl hfirst

/-- A split that costs the parent something leaves it a first slice only if it had two jiffies. -/
theorem split_firstSlice (hfork : Step s .doForkSplit s')
    (hclean : ¬s.ForksForFree) (hfirst : (s'.task s.rq.curr).firstTimeSlice ≠ 0) :
    s.current.firstTimeSlice ≠ 0 ∧ 2 ≤ s.current.timeSlice.toNat ∧
      (s'.task s.rq.curr).timeSlice.toNat ≤ s.current.timeSlice.toNat := by
  have htime := doForkSplit_curr_time hfork
  generalize (s'.task s.rq.curr).toTaskSched = p' at htime hfirst ⊢
  have hsplit : s.current.firstTimeSlice ≠ 0 → s.current.policy = .short → s.current.ShortTask := by
    intro hold hshort
    by_contra hover
    exact hclean (.inl ⟨⟨hshort, hover⟩, .inl hold⟩)
  cases htime with
  | slice hsome hslice =>
    have hhalf := Task.toNat_parentSlice (hsplit hfirst)
    have hpos : 1 ≤ s.current.parentSlice.toNat := slice_pos.mpr hslice
    refine ⟨hfirst, ?_, ?_⟩
    · omega
    · show s.current.parentSlice.toNat ≤ _
      omega
  | expired hsome hslice harray =>
    have hone := Task.timeSlice_of_parentSlice hsome hslice
    exact absurd (.inr ⟨hfirst, hone, .inl harray⟩) hclean
  | tick hsome hslice =>
    have hlast := Task.afterTick_lastJiffy rfl hfirst
    have hone := Task.timeSlice_of_parentSlice hsome hslice
    have hjiffy : (1 : UInt32) ≠ 0 := by decide
    have hold : s.current.firstTimeSlice ≠ 0 :=
      (Task.afterTick_firstSlice (fun hc => hjiffy hc.2) hfirst).1
    exact absurd (.inr ⟨hold, hone, .inr hlast⟩) hclean

/-- **A step** that breaks no law gives no task a first slice, and lets no first slice grow, but
for the child that a fork makes and the parent that reaps. -/
theorem firstSlice_step (hstep : Step s op s') (hclean : ¬Generates (s, gs) op)
    (hexit : ∀ p, op = .schedExit p → t ≠ s.rq.curr)
    (hcopy : ∀ cloneFlags env, op = .doFork cloneFlags env → ¬s.ForkRefused cloneFlags env →
      t ≠ env.child)
    (hchild : op = .doForkSplit → ∀ f ∈ s.forking, t ≠ f.child) :
    FirstSliceShrinks (s.task t).toTaskSched (s'.task t).toTaskSched := by
  have htime := step_time hstep t
  cases op with
  | setscheduler pid policy param =>
    obtain ⟨r, hr, rfl⟩ := Option.map_eq_some_iff.mp hstep.2
    exact setscheduler_firstSlice hr hclean t
  | doFork cloneFlags env =>
    generalize (s'.task t).toTaskSched = p' at htime ⊢
    cases htime with
    | same _ h => exact h.firstSliceShrinks
    | forkCopy hnot ht => exact absurd ht (hcopy _ _ rfl hnot)
  | doForkSplit =>
    by_cases ht : t = s.rq.curr
    · subst ht
      intro hfirst
      obtain ⟨hold, -, hle⟩ := split_firstSlice hstep hclean hfirst
      exact ⟨hold, hle⟩
    · obtain ⟨f, hf, -, -, -, -, rfl⟩ := doForkSplit_step hstep
      rw [forked_of_ne (hchild rfl f hf) ht]
      exact (SameTime.refl _).firstSliceShrinks
  | schedulerTick =>
    generalize (s'.task t).toTaskSched = p' at htime ⊢
    cases htime with
    | same _ h => exact h.firstSliceShrinks
    | tick ht =>
      subst ht
      exact Task.afterTick_firstSlice hclean
  | schedExit p =>
    generalize (s'.task t).toTaskSched = p' at htime ⊢
    cases htime with
    | same _ h => exact h.firstSliceShrinks
    | reap ht => exact absurd ht (hexit p rfl)
  | _ =>
    generalize (s'.task t).toTaskSched = p' at htime ⊢
    cases htime with
    | same _ h => exact h.firstSliceShrinks

/-! ## The ledger -/

/-- What a task has left of its first slice, and what it gave to its own children, came from the
fork that made it. -/
structure LedgerInv (x : Sys × List (Gift TaskId)) : Prop where
  covers : ∀ g ∈ x.2, 2 ≤ g.had → (x.1.task g.taker).firstTimeSlice ≠ 0 →
    (x.1.task g.taker).timeSlice.toNat + given x.2 g.taker ≤ g.amount
  /-- a task that has its first slice has split it at each of its forks -/
  split : ∀ g ∈ x.2, (x.1.task g.giver).firstTimeSlice ≠ 0 → 2 ≤ g.had
  /-- a child that has not got its share yet has no entry -/
  fresh : ∀ f ∈ x.1.forking, f.split = false → ∀ g ∈ x.2, g.giver ≠ f.child ∧ g.taker ≠ f.child

theorem giftOf_left (hfork : Step s .doForkSplit s') (child : TaskId) :
    (s.giftOf child).left = (s'.task s.rq.curr).timeSlice.toNat := by
  have hcall : s.doForkSplit = some s' := hfork.2
  rw [giftOf, hcall]

/-- A child gets no more than the split takes from the parent. -/
theorem childSlice_le_amount (hfork : Step s .doForkSplit s') (hf : s.forking = some f)
    (hclean : ¬s.ForksForFree) (htwo : 2 ≤ s.current.timeSlice.toNat) :
    (s'.task f.child).timeSlice.toNat ≤ (s.giftOf f.child).amount := by
  have hclass : s.current.policy = .short → s.current.ShortTask := by
    intro hshort
    by_contra hover
    exact hclean (.inl ⟨⟨hshort, hover⟩, .inr htwo⟩)
  obtain ⟨hparent, hchild, -⟩ := split_shares hfork hf hclass htwo
  have hchildSlice : (s.current.childSlice (s.task f.child)).toNat ≤
      s.current.timeSlice.toNat - s.current.timeSlice.toNat / 2 := by
    by_cases hshort : s.current.policy = .short
    · rw [Task.toNat_childSlice_short (hclass hshort)]
    · rw [Task.toNat_childSlice_other hshort]
      omega
  calc (s'.task f.child).timeSlice.toNat
      ≤ s.current.timeSlice.toNat - s.current.timeSlice.toNat / 2 := by rwa [hchild]
    _ = (s.giftOf f.child).amount := by
      rw [Gift.amount, giftOf_left hfork, hparent, Task.toNat_parentSlice hclass]
      rfl

/-- Only the copy makes a fork that has not split yet. -/
theorem pending_of_step (hstep : Step s op s')
    (hfork : ∀ cloneFlags env, op ≠ .doFork cloneFlags env) :
    ∀ f ∈ s'.forking, f.split = false → f ∈ s.forking := by
  intro f hf hsplit
  cases step_lists hstep with
  | same _ hsame => rwa [hsame.forking] at hf
  | doFork => exact absurd rfl (hfork _ _)
  | doForkSplit _ _ _ hforking =>
    rw [hforking, Option.mem_some_iff] at hf
    rw [← hf] at hsplit
    cases hsplit
  | doForkWake _ _ hforking =>
    rw [hforking] at hf
    cases hf
  | schedExit _ _ hforking => rwa [hforking] at hf

omit [Param] in
theorem LedgerInv.of_shrinks (h : LedgerInv (s, gs))
    (hshrinks : ∀ t, FirstSliceShrinks (s.task t).toTaskSched (s'.task t).toTaskSched)
    (hpending : ∀ f ∈ s'.forking, f.split = false → f ∈ s.forking) : LedgerInv (s', gs) where
  covers g hg hhad hfirst := by
    obtain ⟨hold, hle⟩ := hshrinks g.taker hfirst
    have hcovers : (s.task g.taker).timeSlice.toNat + given gs g.taker ≤ g.amount :=
      h.covers g hg hhad hold
    show (s'.task g.taker).timeSlice.toNat + given gs g.taker ≤ g.amount
    omega
  split g hg hfirst := h.split g hg (hshrinks g.giver hfirst).1
  fresh f hf hsplit := h.fresh f (hpending f hf hsplit) hsplit

/-- The copy: whoever had the structure of the child before is struck out. -/
theorem LedgerInv.copy {cloneFlags : UInt32} {env : ForkEnv} (h : LedgerInv (s, gs))
    (hfork : Step s (.doFork cloneFlags env) s') (hnot : ¬s.ForkRefused cloneFlags env) :
    LedgerInv (s', gs.filter fun g => g.giver ≠ env.child ∧ g.taker ≠ env.child) := by
  set rest := gs.filter fun g => g.giver ≠ env.child ∧ g.taker ≠ env.child with hrest
  have hmem : ∀ g ∈ rest, g ∈ gs ∧ g.giver ≠ env.child ∧ g.taker ≠ env.child := by
    intro g hg
    obtain ⟨hold, hp⟩ := List.mem_filter.mp hg
    exact ⟨hold, of_decide_eq_true hp⟩
  obtain rfl := doFork_step hfork hnot
  constructor
  · intro g hg hhad hfirst
    obtain ⟨hold, -, htaker⟩ := hmem g hg
    dsimp only at hfirst ⊢
    rw [copied_of_ne htaker] at hfirst ⊢
    have hcovers : (s.task g.taker).timeSlice.toNat + given gs g.taker ≤ g.amount :=
      h.covers g hold hhad hfirst
    have hless : given rest g.taker ≤ given gs g.taker := given_filter_le _ gs g.taker
    omega
  · intro g hg hfirst
    obtain ⟨hold, hgiver, -⟩ := hmem g hg
    dsimp only at hfirst
    rw [copied_of_ne hgiver] at hfirst
    exact h.split g hold hfirst
  · intro f hf _ g hg
    rw [← Option.some.inj hf]
    exact (hmem g hg).2

/-- The split: what the child gets is entered as a gift. -/
theorem LedgerInv.fork (h : LedgerInv (s, gs)) (hfork : Step s .doForkSplit s')
    (hf : s.forking = some f) (hclean : ¬s.ForksForFree) :
    LedgerInv (s', s.giftOf f.child :: gs) := by
  obtain ⟨f', hf', hunsplit, -, hcopy, -, heq⟩ := doForkSplit_step hfork
  obtain rfl := Option.some.inj (hf.symm.trans hf')
  have hne := hcopy.ne_curr
  set gift := s.giftOf f.child with hgift
  have hfresh : ∀ g ∈ gs, g.giver ≠ f.child ∧ g.taker ≠ f.child := h.fresh f hf hunsplit
  have hshrinks : ∀ t, t ≠ f.child →
      FirstSliceShrinks (s.task t).toTaskSched (s'.task t).toTaskSched := by
    intro t ht
    have hother : ∀ f', s.forking = some f' → t ≠ f'.child := by
      intro f' hf'
      rwa [← Option.some.inj (hf.symm.trans hf')]
    have hfree : ¬Generates (s, gs) .doForkSplit := hclean
    exact firstSlice_step hfork hfree nofun nofun fun _ => hother
  constructor
  · intro g hg hhad hfirst
    rw [given]
    rcases List.mem_cons.mp hg with rfl | hg
    · -- the child has given nothing yet
      have hzero : given gs f.child = 0 := given_eq_zero fun g hg => (hfresh g hg).1
      have hgiver : ¬gift.giver = gift.taker := hne.symm
      rw [if_neg hgiver, Nat.zero_add]
      show (s'.task f.child).timeSlice.toNat + given gs f.child ≤ gift.amount
      rw [hzero]
      exact childSlice_le_amount hfork hf hclean hhad
    obtain ⟨hold', hle⟩ := hshrinks g.taker (hfresh g hg).2 hfirst
    have hcovers : (s.task g.taker).timeSlice.toNat + given gs g.taker ≤ g.amount :=
      h.covers g hg hhad hold'
    show (s'.task g.taker).timeSlice.toNat + _ ≤ g.amount
    split
    · next hgiver =>
      -- what the parent gave is what its slice was lowered by
      have hleft := giftOf_left hfork f.child
      have hhad : gift.had = (s.task g.taker).timeSlice.toNat := by
        rw [← hgiver]
        rfl
      have hamount : gift.amount =
          (s.task g.taker).timeSlice.toNat - (s'.task g.taker).timeSlice.toNat := by
        rw [Gift.amount, hhad, hleft, ← hgiver]
        rfl
      omega
    · omega
  · intro g hg hfirst
    rcases List.mem_cons.mp hg with rfl | hg
    · exact (split_firstSlice hfork hclean hfirst).2.1
    · exact h.split g hg (hshrinks g.giver (hfresh g hg).1 hfirst).1
  · intro f'' hf'' hsplit
    rw [heq] at hf''
    rw [← Option.some.inj hf''] at hsplit
    cases hsplit

theorem LedgerInv.exit {p : TaskId} (h : LedgerInv (s, gs)) (hexit : Step s (.schedExit p) s')
    (hclean : ¬s.ReapsForeign p gs) : LedgerInv (s', gs.filter fun g => g.taker ≠ p) := by
  have hothers : ∀ t, t ≠ s.rq.curr →
      FirstSliceShrinks (s.task t).toTaskSched (s'.task t).toTaskSched := by
    intro t ht
    exact firstSlice_step hexit hclean (fun _ _ => ht) nofun nofun
  have hcurr := schedExit_curr_sched hexit
  have hfirst : ∀ t, (s'.task t).firstTimeSlice ≠ 0 → (s.task t).firstTimeSlice ≠ 0 := by
    intro t ht
    by_cases hc : t = s.rq.curr
    · rw [hc, hcurr] at ht
      rwa [hc]
    · exact (hothers t hc ht).1
  set rest := gs.filter fun g => g.taker ≠ p with hrest
  constructor
  · intro g hg hhad hnew
    have hold := (List.mem_filter.mp hg).1
    have hcovers : (s.task g.taker).timeSlice.toNat + given gs g.taker ≤ g.amount :=
      h.covers g hold hhad (hfirst _ hnew)
    have hless : given rest g.taker ≤ given gs g.taker := given_filter_le _ gs g.taker
    show (s'.task g.taker).timeSlice.toNat + given rest g.taker ≤ g.amount
    by_cases htaker : g.taker = s.rq.curr
    swap
    · have hle := (hothers _ htaker hnew).2
      omega
    rw [htaker] at hcovers hless ⊢
    have hreap := (s.task p).reapSlice_le (s.task s.rq.curr)
    have hslice : (s'.task s.rq.curr).timeSlice = (s.task p).reapSlice (s.task s.rq.curr) :=
      congrArg TaskSched.timeSlice hcurr
    rw [hslice]
    split at hreap
    swap
    · omega
    next hchild =>
    -- the child was given to by `current` itself, and its entry is struck out
    have hcurrFirst : s.current.firstTimeSlice ≠ 0 := by
      have hnew' := hfirst _ hnew
      rwa [htaker] at hnew'
    obtain ⟨g', hg', htaker', hgiver'⟩ : ∃ g' ∈ gs, g'.taker = p ∧ g'.giver = s.rq.curr := by
      by_contra hnone
      exact hclean ⟨hcurrFirst, hchild, fun g' hg' hc => hnone ⟨g', hg', hc⟩⟩
    have hhad' : 2 ≤ g'.had := h.split g' hg' (by rwa [hgiver'])
    have hcovers' : (s.task p).timeSlice.toNat + given gs p ≤ g'.amount := by
      rw [← htaker'] at hchild ⊢
      exact h.covers g' hg' hhad' hchild
    have hstruck : given rest s.rq.curr + g'.amount ≤ given gs s.rq.curr :=
      given_filter_add_le hg' (by simp [htaker']) hgiver'
    omega
  · intro g hg hnew
    exact h.split g (List.mem_filter.mp hg).1 (hfirst _ hnew)
  · intro f hf hsplit g hg
    exact h.fresh f (pending_of_step hexit nofun f hf hsplit) hsplit g (List.mem_filter.mp hg).1

/-- **The ledger** stays balanced over every step that breaks no law. -/
theorem LedgerInv.step {y : Sys × List (Gift TaskId)} (h : LedgerInv (s, gs))
    (hstep : Ghost Step recordGift (s, gs) op y) (hclean : ¬Generates (s, gs) op) :
    LedgerInv y := by
  obtain ⟨s', gs'⟩ := y
  obtain ⟨hstep, rfl⟩ := hstep
  dsimp only at hstep ⊢
  cases op with
  | doFork cloneFlags env =>
    by_cases hrefused : s.ForkRefused cloneFlags env
    · rw [recordGift, if_pos hrefused]
      obtain rfl := Option.some.inj hstep.2
      rwa [(doFork_of_refused hrefused).2]
    · rw [recordGift, if_neg hrefused]
      exact h.copy hstep hrefused
  | doForkSplit =>
    obtain ⟨f, hf, -⟩ := doForkSplit_step hstep
    rw [recordGift, hf]
    exact h.fork hstep hf hclean
  | schedExit p => exact h.exit hstep hclean
  | _ =>
    exact h.of_shrinks (fun t => firstSlice_step hstep hclean nofun nofun nofun)
      (pending_of_step hstep nofun)

/-! ## Runs -/

/-- A step with the ledger that breaks no law. -/
abbrev FairStep : Sys × List (Gift TaskId) → Op → Sys × List (Gift TaskId) → Prop :=
  Guarded (fun x op => ¬Generates x op) (Ghost Step recordGift)

variable {x x₁ x₂ x₃ : Sys × List (Gift TaskId)} {ops : List Op}

theorem ledgerInv_of_run (hrun : Run FairStep (s, []) ops x) : LedgerInv x := by
  refine hrun.invariant (P := LedgerInv) (fun x op y h hstep => ?_) ⟨nofun, nofun, nofun⟩
  exact LedgerInv.step h hstep.2 hstep.1

/-- A gift stays in the ledger until one of its two tasks is reaped. -/
theorem mem_ledger_of_run {y : Sys × List (Gift TaskId)} (hrun : Run FairStep x ops y)
    {g : Gift TaskId} (hg : g ∈ x.2) (hgiver : x.1.IsTask g.giver) (htaker : x.1.IsTask g.taker)
    (hkept : ∀ op ∈ ops, op ≠ .schedExit g.taker ∧ op ≠ .schedExit g.giver) : g ∈ y.2 := by
  induction hrun with
  | nil => exact hg
  | @cons x z y op ops hstep _ ih =>
    obtain ⟨-, hstep, hledger⟩ := hstep
    obtain ⟨hop, hop'⟩ := hkept op List.mem_cons_self
    refine ih ?_ (isTask_step hstep hop' hgiver) (isTask_step hstep hop htaker)
      fun op hmem => hkept op (List.mem_cons_of_mem _ hmem)
    rw [hledger]
    cases op with
    | doFork cloneFlags env =>
      have hne := ne_child_of_isTask hstep hgiver cloneFlags env rfl
      have hne' := ne_child_of_isTask hstep htaker cloneFlags env rfl
      rw [recordGift]
      split
      · exact hg
      · exact List.mem_filter.mpr ⟨hg, decide_eq_true ⟨hne, hne'⟩⟩
    | doForkSplit =>
      rw [recordGift]
      split
      · exact List.mem_cons_of_mem _ hg
      · exact hg
    | schedExit p =>
      have hne : g.taker ≠ p := fun hc => hop (by rw [hc])
      exact List.mem_filter.mpr ⟨hg, decide_eq_true hne⟩
    | _ => exact hg

/-- **A reaped child** brings its parent at most what its fork took from the parent, in every run
whose steps break no law. -/
theorem reaped_at_most_given {ops' : List Op} (hbefore : Run FairStep (s, []) ops x₁)
    (htask : x₁.1.IsTask x₁.1.rq.curr) (hfork : FairStep x₁ .doForkSplit x₂)
    (hf : x₁.1.forking = some f) (htwo : 2 ≤ x₁.1.current.timeSlice.toNat)
    (hrun : Run FairStep x₂ ops' x₃)
    (hkept : ∀ op ∈ ops', op ≠ .schedExit f.child ∧ op ≠ .schedExit x₁.1.rq.curr)
    (hcurr : x₃.1.rq.curr = x₁.1.rq.curr) (hexit : Step x₃.1 (.schedExit f.child) s') :
    (s'.task x₁.1.rq.curr).timeSlice.toNat - (x₃.1.task x₁.1.rq.curr).timeSlice.toNat ≤
      x₁.1.current.timeSlice.toNat - (x₂.1.task x₁.1.rq.curr).timeSlice.toNat := by
  have hstep := hfork.2.1
  have hgift : x₁.1.giftOf f.child ∈ x₂.2 := by
    rw [hfork.2.2, recordGift, hf]
    exact List.mem_cons_self
  have hamount : (x₁.1.giftOf f.child).amount =
      x₁.1.current.timeSlice.toNat - (x₂.1.task x₁.1.rq.curr).timeSlice.toNat := by
    rw [Gift.amount, giftOf_left hstep]
    rfl
  have hgiver : x₂.1.IsTask x₁.1.rq.curr := isTask_step hstep (fun hc => nomatch hc) htask
  have hmem := mem_ledger_of_run hrun hgift hgiver (ownsSlice_child hstep hf).isTask hkept
  -- at the exit the entry covers what the child has left
  have hinv := ledgerInv_of_run (hbefore.append (Run.cons hfork hrun))
  have hslice : (s'.task x₁.1.rq.curr).timeSlice =
      (x₃.1.task f.child).reapSlice (x₃.1.task x₁.1.rq.curr) := by
    have hsched := schedExit_curr_sched hexit
    rw [current, hcurr] at hsched
    exact congrArg TaskSched.timeSlice hsched
  have hreap := (x₃.1.task f.child).reapSlice_le (x₃.1.task x₁.1.rq.curr)
  rw [hslice, ← hamount]
  split at hreap
  · next hfirst =>
    have hcovers : (x₃.1.task f.child).timeSlice.toNat + given x₃.2 f.child ≤
      (x₁.1.giftOf f.child).amount := hinv.covers _ hmem htwo hfirst
    omega
  · omega

omit [Param] in
/-- An overdue parent with 4 jiffies forks, keeps them all, and has 8 when the child is reaped. -/
theorem reaping_generates_slices :
    let before : List Op := [.setscheduler 0 5 (.valid ⟨0, 20⟩), .schedulerTick, .schedulerTick]
    let between : List Op := [.doForkWake, .setCurrentState .interruptible, .schedule, .doExit 1,
      .tryToWakeUp 1 false, .schedule]
    ∃ s₁ s₂ s₃ s₄, @Run Sys Op (@Step hz100) privilegedTask before s₁ ∧
      @Run Sys Op (@Step hz100) s₁ [.doFork 0 ⟨2, 2, 0⟩, .doForkSplit] s₂ ∧
      @Run Sys Op (@Step hz100) s₂ between s₃ ∧
      @Step hz100 s₃ (.schedExit 2) s₄ ∧
      (s₁.rq.curr = 1 ∧ (s₁.task 1).timeSlice = 4 ∧ (s₂.task 1).timeSlice = 4) ∧
      s₃.rq.curr = 1 ∧ (s₃.task 1).timeSlice = 4 ∧ (s₄.task 1).timeSlice = 8 := by
  intro before between
  let fork : List Op := [.doFork 0 ⟨2, 2, 0⟩, .doForkSplit]
  have hbefore : ((@runOps hz100 before privilegedTask).map fun s =>
      (s.rq.curr, (s.task 1).timeSlice)) = some (1, 4) := by decide +kernel
  have hfork : ((@runOps hz100 before privilegedTask >>= @runOps hz100 fork).map fun s =>
      (s.task 1).timeSlice) = some 4 := by decide +kernel
  have hbetween : (((@runOps hz100 before privilegedTask >>= @runOps hz100 fork) >>=
      @runOps hz100 between).map fun s => (s.rq.curr, (s.task 1).timeSlice)) = some (1, 4) := by
    decide +kernel
  have hexit : ((((@runOps hz100 before privilegedTask >>= @runOps hz100 fork) >>=
      @runOps hz100 between) >>= @runOps hz100 [.schedExit 2]).map fun s =>
        (s.task 1).timeSlice) = some 8 := by
    decide +kernel
  obtain ⟨s₁, hs₁, hval₁⟩ := Option.map_eq_some_iff.mp hbefore
  simp only [hs₁, Option.bind_eq_bind, Option.bind_some] at hfork hbetween hexit
  obtain ⟨s₂, hs₂, hval₂⟩ := Option.map_eq_some_iff.mp hfork
  simp only [hs₂, Option.bind_some] at hbetween hexit
  obtain ⟨s₃, hs₃, hval₃⟩ := Option.map_eq_some_iff.mp hbetween
  simp only [hs₃, Option.bind_some] at hexit
  obtain ⟨s₄, hs₄, hval₄⟩ := Option.map_eq_some_iff.mp hexit
  obtain ⟨hcurr₁, hslice₁⟩ := Prod.mk.inj hval₁
  obtain ⟨hcurr₃, hslice₃⟩ := Prod.mk.inj hval₃
  exact ⟨s₁, s₂, s₃, s₄, (@run_iff_runOps hz100 _ _ _).mpr hs₁,
    (@run_iff_runOps hz100 _ _ _).mpr hs₂, (@run_iff_runOps hz100 _ _ _).mpr hs₃,
    (@runOps_single hz100 _ _ _).mp hs₄, ⟨hcurr₁, hslice₁, hval₂⟩, hcurr₃, hslice₃, hval₄⟩

omit [Param] in
/-- An OTHER parent gives 8 of its 15 jiffies to a child that runs for one. -/
theorem reaped_at_most_given_eight :
    let between : List Op := [.doForkWake, .setCurrentState .interruptible, .schedule,
      .schedulerTick, .doExit 1, .tryToWakeUp 1 false, .schedule]
    ∃ x₁ x₂ x₃ s₄, @FairStep hz100 (privilegedTask, []) (.doFork 0 ⟨2, 2, 0⟩) x₁ ∧
      @FairStep hz100 x₁ .doForkSplit x₂ ∧ Run (@FairStep hz100) x₂ between x₃ ∧
      @Step hz100 x₃.1 (.schedExit 2) s₄ ∧
      (s₄.task 1).timeSlice.toNat - (x₃.1.task 1).timeSlice.toNat ≤
        15 - (x₂.1.task 1).timeSlice.toNat := by
  intro between
  let G : Sys × List (Gift TaskId) → Op → Prop := fun x op => ¬@Generates hz100 x op
  let run := runWith (@stepIf hz100 _ G _ (@recordGift hz100))
  let fork : List Op := [.doFork 0 ⟨2, 2, 0⟩]
  have hfork : ((run fork (privilegedTask, [])).map fun x =>
      (x.1.rq.curr, x.1.current.timeSlice, x.1.forking)) = some (1, 15, some ⟨2, 0, false⟩) := by
    decide +kernel
  have hall : (((run fork (privilegedTask, []) >>= run [.doForkSplit]) >>= run between).map fun x =>
      (x.1.rq.curr, (@runOps hz100 [.schedExit 2] x.1).isSome)) = some (1, true) := by
    decide +kernel
  obtain ⟨x₁, hx₁, hfields⟩ := Option.map_eq_some_iff.mp hfork
  simp only [Prod.mk.injEq] at hfields
  obtain ⟨hcurr₁, hslice₁, hforking₁⟩ := hfields
  simp only [hx₁, Option.bind_eq_bind, Option.bind_some] at hall
  obtain ⟨x₃, hx₃, hval⟩ := Option.map_eq_some_iff.mp hall
  obtain ⟨x₂, hx₂, hx₃⟩ := Option.bind_eq_some_iff.mp hx₃
  obtain ⟨hcurr, hexit⟩ := Prod.mk.inj hval
  obtain ⟨s₄, hs₄⟩ := Option.isSome_iff_exists.mp hexit
  have hcopy : @FairStep hz100 (privilegedTask, []) (.doFork 0 ⟨2, 2, 0⟩) x₁ :=
    Run.single_iff.mp ((@guarded_ghost_run_iff hz100 _ G _ _ _ _ _).mpr hx₁)
  have hsplit : @FairStep hz100 x₁ .doForkSplit x₂ :=
    Run.single_iff.mp ((@guarded_ghost_run_iff hz100 _ G _ _ _ _ _).mpr hx₂)
  have hrun : Run (@FairStep hz100) x₂ between x₃ :=
    (@guarded_ghost_run_iff hz100 _ G _ _ _ _ _).mpr hx₃
  have hreap := (@runOps_single hz100 _ _ _).mp hs₄
  have htask : x₁.1.IsTask x₁.1.rq.curr := by
    rw [hcurr₁]
    exact @isTask_step hz100 _ _ _ _ hcopy.2.1 nofun (.inl (by decide))
  have hmost := @reaped_at_most_given hz100 privilegedTask s₄ ⟨2, 0, false⟩ x₁ x₂ x₃
    [.doFork 0 ⟨2, 2, 0⟩] between (Run.single hcopy) htask hsplit hforking₁
    (by rw [hslice₁]; decide) hrun (by rw [hcurr₁]; decide) (hcurr.trans hcurr₁.symm) hreap
  rw [hslice₁, hcurr₁] at hmost
  exact ⟨x₁, x₂, x₃, s₄, hcopy, hsplit, hrun, hreap, hmost⟩

end ShortSched
