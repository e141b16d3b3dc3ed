import Mathlib.Data.Set.Finite.Lattice
import ShortSched.Locks

/-!
# What the locks of the runqueues are good for

A CPU that spins holds only locks of lower runqueues, so that no order of the steps ends in a deadlock.
A CPU in which `task_rq_lock` has returned, or whose migration thread has both locks, holds the lock of
the runqueue that the task is on, until it unlocks it.
-/

namespace ShortSched

open General

namespace LockPc

/-- The locks that CPU `c` holds. -/
def Holds (c l : ℕ) : LockPc → Prop
  | outside | taskRqRead _ | taskRqSpin _ _ | thisRqSpin | balanceFirst _ | doubleRead _ _
  | doubleFirst _ _ _ => False
  | taskRqCheck _ rq | taskRqLocked _ rq | taskRqMoved rq => l = rq
  | thisRqLocked | balanceTry _ | balanceSpin _ => l = c
  | balanceSecond busiest => l = busiest
  | balanceLocked busiest => l = c ∨ l = busiest
  | doubleSecond _ src dest => l = min src dest
  | doubleCheck _ src dest | doubleLocked _ src dest | doubleMoved src dest => l = src ∨ l = dest

/-- The lock that CPU `c` spins on. -/
def wants (c : ℕ) : LockPc → Option ℕ
  | taskRqSpin _ rq => some rq
  | thisRqSpin | balanceSecond _ => some c
  | balanceSpin busiest | balanceFirst busiest => some busiest
  | doubleFirst _ src dest => some (min src dest)
  | doubleSecond _ src dest => some (max src dest)
  | outside | taskRqRead _ | taskRqCheck _ _ | taskRqLocked _ _ | taskRqMoved _ | thisRqLocked
  | balanceTry _ | balanceLocked _ | doubleRead _ _ | doubleCheck _ _ _ | doubleLocked _ _ _
  | doubleMoved _ _ => none

/-- How the runqueues lie to each other. -/
def Ok (c : ℕ) : LockPc → Prop
  | balanceTry busiest | balanceLocked busiest => busiest ≠ c
  | balanceSpin busiest => c < busiest
  | balanceFirst busiest | balanceSecond busiest => busiest < c
  | doubleSecond _ src dest => src ≠ dest
  | outside | taskRqRead _ | taskRqSpin _ _ | taskRqCheck _ _ | taskRqLocked _ _ | taskRqMoved _
  | thisRqSpin | thisRqLocked | doubleRead _ _ | doubleFirst _ _ _ | doubleCheck _ _ _
  | doubleLocked _ _ _ | doubleMoved _ _ => True

/-- The CPU relies on `task_rq(p)` to be `rq`. -/
def Guards (p : TaskId) (rq : ℕ) : LockPc → Prop
  | taskRqLocked q rq' => q = p ∧ rq' = rq
  | doubleLocked q src _ => q = p ∧ src = rq
  | _ => False

variable {c l rq : ℕ} {p : TaskId} {pc : LockPc}

theorem Guards.holds (h : pc.Guards p rq) (c : ℕ) : pc.Holds c rq := by
  cases pc with
  | taskRqLocked => exact h.2.symm
  | doubleLocked => exact .inl h.2.symm
  | _ => exact h.elim

/-- A CPU spins on locks above those that it holds. -/
theorem lt_of_wants (hok : pc.Ok c) (hwants : pc.wants c = some l) {l' : ℕ} (hholds : pc.Holds c l') :
    l' < l := by
  cases pc with
  | balanceSpin busiest =>
    obtain rfl := Option.some.inj hwants
    rw [show l' = c from hholds]
    exact hok
  | balanceSecond busiest =>
    obtain rfl := Option.some.inj hwants
    rw [show l' = busiest from hholds]
    exact hok
  | doubleSecond q src dest =>
    obtain rfl := Option.some.inj hwants
    rw [show l' = min src dest from hholds]
    exact min_lt_max.mpr hok
  | taskRqSpin | thisRqSpin | balanceFirst | doubleFirst => exact hholds.elim
  | _ => cases hwants

/-- A CPU holds two locks at most. -/
theorem finite_holds (c : ℕ) (pc : LockPc) : {l | pc.Holds c l}.Finite := by
  have hpair : ∀ a b : ℕ, {l | l = a ∨ l = b}.Finite := fun a b => Set.toFinite {a, b}
  have hone : ∀ a : ℕ, {l | l = a}.Finite := fun a => Set.toFinite {a}
  cases pc with
  | balanceLocked busiest => exact hpair c busiest
  | doubleCheck _ src dest | doubleLocked _ src dest | doubleMoved src dest => exact hpair src dest
  | taskRqCheck _ rq | taskRqLocked _ rq | taskRqMoved rq => exact hone rq
  | thisRqLocked | balanceTry | balanceSpin => exact hone c
  | balanceSecond busiest => exact hone busiest
  | doubleSecond _ src dest => exact hone (min src dest)
  | _ => exact Set.finite_empty

end LockPc

/-! ## The invariant -/

namespace LockSys

variable {s s' : LockSys} {c l rq cpu : ℕ} {p : TaskId} {pc : LockPc} {op : LockOp}

/-- The locks agree with where the CPUs are; finitely many CPUs are anywhere. -/
structure LockInv (s : LockSys) : Prop where
  owner : ∀ l c, s.owner l = some c ↔ (s.pc c).Holds c l
  ok : ∀ c, (s.pc c).Ok c
  finite : {c | s.pc c ≠ .outside}.Finite

/-- A task stays on the runqueue that a CPU has locked for it. -/
def Kept (s : LockSys) : Prop :=
  ∀ c p rq, (s.pc c).Guards p rq → s.cpuOf p = rq

/-- No lock is held. -/
def start (cpuOf : TaskId → ℕ) : LockSys := ⟨fun _ => none, fun _ => .outside, cpuOf⟩

theorem lockInv_start (cpuOf : TaskId → ℕ) : (start cpuOf).LockInv where
  owner _ _ := iff_of_false (Option.some_ne_none _).symm id
  ok _ := trivial
  finite := by
    refine Set.finite_empty.subset fun c hc => ?_
    exact hc rfl

theorem kept_start (cpuOf : TaskId → ℕ) : (start cpuOf).Kept :=
  fun _ _ _ hguard => hguard.elim

/-- Where the CPUs are after CPU `c` has gone on. -/
theorem pc_update {s s' : LockSys} (hpc : s'.pc = Function.update s.pc c pc) (c' : ℕ) :
    c' = c ∧ s'.pc c' = pc ∨ c' ≠ c ∧ s'.pc c' = s.pc c' := by
  rw [hpc]
  by_cases hc : c' = c
  · subst hc
    exact .inl ⟨rfl, Function.update_self ..⟩
  · exact .inr ⟨hc, Function.update_of_ne hc ..⟩

/-- `double_rq_lock` takes the lower of its two locks first. -/
theorem proceed_doubleFirst {src dest : ℕ} (hpc : s.pc c = .doubleFirst p src dest) :
    s.proceed c = s.spinLock c (min src dest)
      (if src = dest then .doubleCheck p src dest else .doubleSecond p src dest) := by
  simp only [proceed, hpc]
  rcases lt_trichotomy src dest with hlt | rfl | hgt
  · rw [if_neg hlt.ne, if_pos hlt, if_neg hlt.ne, min_eq_left hlt.le]
  · rw [if_pos rfl, if_pos rfl, min_self]
  · rw [if_neg hgt.ne', if_neg hgt.not_gt, if_neg hgt.ne', min_eq_right hgt.le]

/-- It takes the upper one next. -/
theorem proceed_doubleSecond {src dest : ℕ} (hpc : s.pc c = .doubleSecond p src dest) :
    s.proceed c = s.spinLock c (max src dest) (.doubleCheck p src dest) := by
  simp only [proceed, hpc]
  split
  · next hlt => rw [max_eq_right hlt.le]
  · next hle => rw [max_eq_left (not_lt.mp hle)]

namespace LockInv

/-- A step of CPU `c`. -/
theorem step (h : s.LockInv) (hpc : s'.pc = Function.update s.pc c pc)
    (hother : ∀ l c', c' ≠ c → (s'.owner l = some c' ↔ s.owner l = some c'))
    (hself : ∀ l, s'.owner l = some c ↔ pc.Holds c l) (hok : pc.Ok c) : s'.LockInv := by
  refine ⟨fun l c' => ?_, fun c' => ?_, ?_⟩
  · rcases pc_update hpc c' with ⟨rfl, hat⟩ | ⟨hc, hat⟩
    · rw [hat]
      exact hself l
    · rw [hat, hother l c' hc]
      exact h.owner l c'
  · rcases pc_update hpc c' with ⟨rfl, hat⟩ | ⟨-, hat⟩
    · rwa [hat]
    · rw [hat]
      exact h.ok c'
  · refine (h.finite.insert c).subset fun c' hc' => ?_
    rcases pc_update hpc c' with ⟨rfl, -⟩ | ⟨-, hat⟩
    · exact Set.mem_insert ..
    · right
      show s.pc c' ≠ .outside
      rwa [← hat]

/-- CPU `c` goes on with the locks it has. -/
theorem goto (h : s.LockInv) (hholds : ∀ l, pc.Holds c l ↔ (s.pc c).Holds c l) (hok : pc.Ok c) :
    (s.goto c pc).LockInv := by
  refine h.step rfl (fun _ _ _ => Iff.rfl) (fun l => ?_) hok
  rw [hholds]
  exact h.owner l c

/-- CPU `c` spins, or takes the lock. -/
theorem spinLock (h : s.LockInv)
    (hholds : ∀ l', pc.Holds c l' ↔ (s.pc c).Holds c l' ∨ l' = l) (hok : pc.Ok c) :
    (s.spinLock c l pc).LockInv := by
  unfold LockSys.spinLock
  split
  swap
  · exact h
  next hfree =>
  refine h.step rfl (fun l' c' hc => ?_) (fun l' => ?_) hok
  · show Function.update s.owner l (some c) l' = some c' ↔ _
    by_cases hl : l' = l
    · subst hl
      rw [Function.update_self, hfree]
      exact iff_of_false (fun heq => hc (Option.some.inj heq).symm) (Option.some_ne_none c').symm
    · rw [Function.update_of_ne hl]
  · show Function.update s.owner l (some c) l' = some c ↔ _
    rw [hholds]
    by_cases hl : l' = l
    · subst hl
      rw [Function.update_self]
      exact iff_of_true rfl (.inr rfl)
    · rw [Function.update_of_ne hl, or_iff_left hl]
      exact h.owner l' c

/-- CPU `c` takes its first lock. -/
theorem spinFirst (h : s.LockInv) (hnone : ∀ l', ¬(s.pc c).Holds c l')
    (hholds : ∀ l', pc.Holds c l' ↔ l' = l) (hok : pc.Ok c) : (s.spinLock c l pc).LockInv := by
  refine h.spinLock (fun l' => ?_) hok
  rw [hholds, or_iff_right (hnone l')]

/-- CPU `c` unlocks some of its locks and goes on. -/
theorem unlocked (h : s.LockInv) {owner : ℕ → Option ℕ} (freed : ℕ → Prop)
    (howner : ∀ l, freed l ∧ owner l = none ∨ ¬freed l ∧ owner l = s.owner l)
    (hfreed : ∀ l, freed l → (s.pc c).Holds c l)
    (hholds : ∀ l, pc.Holds c l ↔ (s.pc c).Holds c l ∧ ¬freed l) (hok : pc.Ok c) :
    ({ s with owner := owner }.goto c pc).LockInv := by
  refine h.step rfl (fun l c' hc => ?_) (fun l => ?_) hok
  · show owner l = some c' ↔ _
    rcases howner l with ⟨hl, hnone⟩ | ⟨-, hsame⟩
    · have howned := (h.owner l c).mpr (hfreed l hl)
      rw [hnone, howned]
      exact iff_of_false (Option.some_ne_none c').symm fun heq => hc (Option.some.inj heq).symm
    · rw [hsame]
  · show owner l = some c ↔ _
    rw [hholds]
    rcases howner l with ⟨hl, hnone⟩ | ⟨hl, hsame⟩
    · rw [hnone]
      exact iff_of_false (Option.some_ne_none c).symm fun hc => hc.2 hl
    · rw [hsame, and_iff_left hl]
      exact h.owner l c

/-- `spin_unlock` -/
theorem spinUnlock (h : s.LockInv) (hl : (s.pc c).Holds c l)
    (hholds : ∀ l', pc.Holds c l' ↔ (s.pc c).Holds c l' ∧ l' ≠ l) (hok : pc.Ok c) :
    ((s.spinUnlock l).goto c pc).LockInv := by
  refine h.unlocked (· = l) (fun l' => ?_) (fun l' hl' => ?_) hholds hok
  · by_cases hl' : l' = l
    · subst hl'
      exact .inl ⟨rfl, Function.update_self ..⟩
    · exact .inr ⟨hl', Function.update_of_ne hl' ..⟩
  · rw [show l' = l from hl']
    exact hl

/-- `double_rq_unlock` -/
theorem doubleRqUnlock {src dest : ℕ} (h : s.LockInv)
    (hholds : ∀ l, (s.pc c).Holds c l ↔ l = src ∨ l = dest) (hnone : ∀ l, ¬pc.Holds c l)
    (hok : pc.Ok c) : ((s.doubleRqUnlock src dest).goto c pc).LockInv := by
  -- both locks are free, and no other changes hands
  have howner : ∀ l, (l = src ∨ l = dest) ∧ (s.doubleRqUnlock src dest).owner l = none ∨
      ¬(l = src ∨ l = dest) ∧ (s.doubleRqUnlock src dest).owner l = s.owner l := by
    intro l
    unfold LockSys.doubleRqUnlock LockSys.spinUnlock
    dsimp only
    split
    · by_cases hdest : l = dest
      · subst hdest
        exact .inl ⟨.inr rfl, Function.update_self ..⟩
      by_cases hsrc : l = src
      · subst hsrc
        exact .inl ⟨.inl rfl, by dsimp only; rw [Function.update_of_ne hdest, Function.update_self]⟩
      · refine .inr ⟨not_or.mpr ⟨hsrc, hdest⟩, ?_⟩
        dsimp only
        rw [Function.update_of_ne hdest, Function.update_of_ne hsrc]
    · next hsame =>
      obtain rfl := not_not.mp hsame
      by_cases hsrc : l = src
      · subst hsrc
        exact .inl ⟨.inl rfl, Function.update_self ..⟩
      · exact .inr ⟨not_or.mpr ⟨hsrc, hsrc⟩, Function.update_of_ne hsrc ..⟩
  have hsys : s.doubleRqUnlock src dest = { s with owner := (s.doubleRqUnlock src dest).owner } := by
    unfold LockSys.doubleRqUnlock
    dsimp only
    split <;> rfl
  rw [hsys]
  refine h.unlocked _ howner (fun l hl => (hholds l).mpr hl) (fun l => ?_) hok
  exact iff_of_false (hnone l) fun hc => hc.2 ((hholds l).mp hc.1)

theorem setCpu (h : s.LockInv) (p : TaskId) (cpu : ℕ) : (s.setCpu p cpu).LockInv :=
  ⟨h.owner, h.ok, h.finite⟩

/-- A CPU that spins holds only locks below the one it waits for. -/
theorem takenInOrder (h : s.LockInv) : TakenInOrder s.owner fun c => (s.pc c).wants c :=
  fun c _ l' hwants howned => LockPc.lt_of_wants (h.ok c) hwants ((h.owner l' c).mp howned)

theorem finite_owned (h : s.LockInv) : {l | s.owner l ≠ none}.Finite := by
  have hfinite := h.finite.biUnion fun c _ => LockPc.finite_holds c (s.pc c)
  refine hfinite.subset fun l hl => ?_
  obtain ⟨c, hc⟩ := Option.ne_none_iff_exists'.mp hl
  have hholds := (h.owner l c).mp hc
  simp only [Set.mem_iUnion]
  refine ⟨c, fun houtside => ?_, hholds⟩
  rw [houtside] at hholds
  exact hholds

/-- `double_lock_balance`: `spin_trylock` succeeds; otherwise the locks are taken in order. -/
theorem balanceTry {busiest : ℕ} (h : s.LockInv) (hpc : s.pc c = .balanceTry busiest) :
    (s.proceed c).LockInv := by
  have hok := h.ok c
  rw [hpc] at hok
  simp only [LockSys.proceed, hpc]
  split
  · refine h.spinLock (fun l => ?_) hok
    rw [hpc]
    exact Iff.rfl
  split
  · -- the lock that is wanted is below ours, which is given up first
    next hlt =>
    refine h.spinUnlock (by rw [hpc]; rfl) (fun l => ?_) hlt
    rw [hpc]
    exact (and_not_self_iff _).symm
  · next hle =>
    refine h.goto (fun l => ?_) (lt_of_le_of_ne (not_lt.mp hle) hok.symm)
    rw [hpc]
    exact Iff.rfl

/-- The first lock of `double_rq_lock`, which is the only one when the runqueues are one. -/
theorem doubleFirst {src dest : ℕ} (h : s.LockInv) (hpc : s.pc c = .doubleFirst p src dest) :
    (s.proceed c).LockInv := by
  have hnone : ∀ l, ¬(s.pc c).Holds c l := by
    intro l
    rw [hpc]
    exact id
  rw [proceed_doubleFirst hpc]
  split
  · next hsame =>
    subst hsame
    refine h.spinFirst hnone (fun l => ?_) trivial
    rw [min_self]
    exact or_self_iff
  · next hne => exact h.spinFirst hnone (fun l => Iff.rfl) hne

/-- The second lock of `double_rq_lock`. -/
theorem doubleSecond {src dest : ℕ} (h : s.LockInv) (hpc : s.pc c = .doubleSecond p src dest) :
    (s.proceed c).LockInv := by
  rw [proceed_doubleSecond hpc]
  refine h.spinLock (fun l => ?_) trivial
  rw [hpc, LockPc.Holds, LockPc.Holds]
  rcases le_total src dest with hle | hle
  · rw [min_eq_left hle, max_eq_right hle]
  · rw [min_eq_right hle, max_eq_left hle]
    exact or_comm

/-- `spin_lock`, `spin_unlock` and the tests between them. -/
theorem proceed (h : s.LockInv) (c : ℕ) : (s.proceed c).LockInv := by
  have hok := h.ok c
  unfold LockSys.proceed
  cases hpc : s.pc c with
  | taskRqRead p =>
    refine h.goto (fun l => ?_) trivial
    rw [hpc]
    exact Iff.rfl
  | taskRqSpin p rq =>
    refine h.spinFirst (fun l => ?_) (fun l => Iff.rfl) trivial
    rw [hpc]
    exact id
  | taskRqCheck p rq =>
    dsimp only
    split
    · -- the task has moved: `goto repeat_lock_task`
      refine h.spinUnlock (by rw [hpc]; rfl) (fun l => ?_) trivial
      rw [hpc]
      exact (and_not_self_iff _).symm
    · refine h.goto (fun l => ?_) trivial
      rw [hpc]
      exact Iff.rfl
  | thisRqSpin =>
    refine h.spinFirst (fun l => ?_) (fun l => Iff.rfl) trivial
    rw [hpc]
    exact id
  | balanceTry busiest => simpa only [LockSys.proceed, hpc] using h.balanceTry hpc
  | balanceSpin busiest =>
    rw [hpc] at hok
    refine h.spinLock (fun l => ?_) (ne_of_gt hok)
    rw [hpc]
    exact Iff.rfl
  | balanceFirst busiest =>
    rw [hpc] at hok
    refine h.spinFirst (fun l => ?_) (fun l => Iff.rfl) hok
    rw [hpc]
    exact id
  | balanceSecond busiest =>
    rw [hpc] at hok
    refine h.spinLock (fun l => ?_) (ne_of_lt hok)
    rw [hpc]
    exact or_comm
  | doubleRead p dest =>
    refine h.goto (fun l => ?_) trivial
    rw [hpc]
    exact Iff.rfl
  | doubleFirst p src dest => simpa only [LockSys.proceed, hpc] using h.doubleFirst hpc
  | doubleSecond p src dest => simpa only [LockSys.proceed, hpc] using h.doubleSecond hpc
  | doubleCheck p src dest =>
    dsimp only
    split
    · -- the task has moved: both locks are given up
      refine h.doubleRqUnlock (fun l => ?_) (fun l => id) trivial
      rw [hpc]
      exact Iff.rfl
    · refine h.goto (fun l => ?_) trivial
      rw [hpc]
      exact Iff.rfl
  | _ => exact h

/-- The end of a critical section. -/
theorem unlock (h : s.LockInv) (c : ℕ) : (s.unlock c).LockInv := by
  have hok := h.ok c
  unfold LockSys.unlock
  cases hpc : s.pc c with
  | taskRqLocked | taskRqMoved | thisRqLocked =>
    refine h.spinUnlock (by rw [hpc]; rfl) (fun l => ?_) trivial
    rw [hpc]
    exact (and_not_self_iff _).symm
  | balanceLocked busiest =>
    rw [hpc] at hok
    refine h.spinUnlock (by rw [hpc]; exact .inr rfl) (fun l => ?_) trivial
    rw [hpc]
    -- of the two locks, that of the other runqueue is given up
    refine ⟨fun hl => ?_, fun hl => hl.1.resolve_right hl.2⟩
    obtain rfl : l = c := hl
    exact ⟨.inl rfl, hok.symm⟩
  | doubleLocked | doubleMoved =>
    refine h.doubleRqUnlock (fun l => ?_) (fun l => id) trivial
    rw [hpc]
    exact Iff.rfl
  | _ => exact h

end LockInv

/-- **The step lemma.** -/
theorem lockInv_step (h : s.LockInv) (hstep : LockStep s op s') : s'.LockInv := by
  obtain ⟨henabled, rfl⟩ := hstep
  have hbegin : ∀ {c pc}, s.pc c = .outside → (∀ l, ¬pc.Holds c l) → pc.Ok c →
      (s.goto c pc).LockInv := by
    intro c pc hpc hnone hok
    refine h.goto (fun l => ?_) hok
    rw [hpc]
    exact iff_of_false (hnone l) id
  cases op with
  | taskRqLock c p => exact hbegin henabled (fun _ => id) trivial
  | thisRqLock c => exact hbegin henabled (fun _ => id) trivial
  | migrate c p dest => exact hbegin henabled (fun _ => id) trivial
  | loadBalance c busiest =>
    obtain ⟨hpc, hne⟩ := henabled
    refine h.goto (fun l => ?_) hne
    rw [hpc]
    exact Iff.rfl
  | proceed c => exact h.proceed c
  | setTaskCpu c cpu =>
    obtain ⟨p, rq, hpc⟩ := henabled
    simp only [LockOp.exec, hpc]
    refine (h.setCpu p cpu).goto (fun l => ?_) trivial
    show _ ↔ (s.pc c).Holds c l
    rw [hpc]
    exact Iff.rfl
  | wakeForked c p => exact h.setCpu p c
  | pull c p => exact h.setCpu p c
  | move c =>
    obtain ⟨p, dest, hpc⟩ := henabled
    simp only [LockOp.exec, hpc]
    refine (h.setCpu p dest).goto (fun l => ?_) trivial
    show _ ↔ (s.pc c).Holds c l
    rw [hpc]
    exact Iff.rfl
  | unlock c => exact h.unlock c

end LockSys
end ShortSched
