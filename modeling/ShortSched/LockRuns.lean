import Mathlib.Algebra.Order.BigOperators.Group.Finset
import ShortSched.LockTheorems

/-!
# The locks of the runqueues over whole runs

From every state that the CPUs can reach, their own steps lead out of all critical sections: the locks
cause no deadlock. A CPU whose `task_rq_lock` has returned holds the lock of the runqueue that the task
is on until it unlocks it or takes the task to another CPU itself, if and only if
`wake_up_forked_process` never takes a task to another CPU while some CPU has locked its runqueue for
it.
-/

namespace ShortSched

open General

namespace LockPc

/-- How many steps it is at most from here out of the function, while `p->cpu` stays. -/
def rank (cpuOf : TaskId → ℕ) : LockPc → ℕ
  | outside => 0
  | taskRqLocked _ _ | taskRqMoved _ | thisRqLocked | doubleLocked _ _ _ | doubleMoved _ _ => 1
  | taskRqCheck p rq => if rq = cpuOf p then 2 else 5
  | taskRqSpin p rq => if rq = cpuOf p then 3 else 6
  | taskRqRead _ => 4
  | thisRqSpin | balanceLocked _ => 2
  | balanceSpin _ | balanceSecond _ => 3
  | balanceFirst _ => 4
  | balanceTry _ => 5
  | doubleCheck p src _ => if src = cpuOf p then 2 else 6
  | doubleSecond p src _ => if src = cpuOf p then 3 else 7
  | doubleFirst p src _ => if src = cpuOf p then 4 else 8
  | doubleRead _ _ => 5

/-- Only outside is nothing left to do. -/
theorem rank_pos {cpuOf : TaskId → ℕ} {pc : LockPc} (h : pc ≠ .outside) : 0 < pc.rank cpuOf := by
  cases pc with
  | outside => exact absurd rfl h
  | taskRqCheck | taskRqSpin | doubleCheck | doubleSecond | doubleFirst =>
    simp only [rank]
    split
    · omega
    · omega
  | _ => exact Nat.succ_pos _

end LockPc

namespace LockSys

variable {s s' : LockSys} {c l rq cpu : ℕ} {p : TaskId} {pc : LockPc} {op : LockOp} {ops : List LockOp}
  {cpuOf : TaskId → ℕ}

/-! ## No deadlock -/

/-- CPU `c` has come nearer to the end of the function that it is in. -/
def Nearer (c : ℕ) (s s' : LockSys) : Prop :=
  ∃ pc, s'.pc = Function.update s.pc c pc ∧ s'.cpuOf = s.cpuOf ∧
    pc.rank s.cpuOf < (s.pc c).rank s.cpuOf

theorem nearer_goto (owner : ℕ → Option ℕ) (h : pc.rank s.cpuOf < (s.pc c).rank s.cpuOf) :
    Nearer c s ({ s with owner := owner }.goto c pc) :=
  ⟨pc, rfl, rfl, h⟩

theorem nearer_spinLock (hfree : s.owner l = none)
    (h : pc.rank s.cpuOf < (s.pc c).rank s.cpuOf) : Nearer c s (s.spinLock c l pc) := by
  rw [spinLock, if_pos hfree]
  exact nearer_goto _ h

/-- `double_rq_unlock` writes to the locks only. -/
theorem doubleRqUnlock_eq (src dest : ℕ) :
    s.doubleRqUnlock src dest = { s with owner := (s.doubleRqUnlock src dest).owner } := by
  unfold doubleRqUnlock
  dsimp only
  split
  · rfl
  · rfl

theorem nearer_doubleRqUnlock (src dest : ℕ) (h : pc.rank s.cpuOf < (s.pc c).rank s.cpuOf) :
    Nearer c s ((s.doubleRqUnlock src dest).goto c pc) := by
  rw [doubleRqUnlock_eq]
  exact nearer_goto _ h

/-- It waits for the lower of the two locks first. -/
theorem nearer_doubleFirst {p : TaskId} {src dest : ℕ} (hpc : s.pc c = .doubleFirst p src dest)
    (hlower : s.owner (min src dest) = none) : Nearer c s (s.proceed c) := by
  rw [proceed_doubleFirst hpc]
  refine nearer_spinLock hlower ?_
  rw [hpc]
  split
  · simp only [LockPc.rank]
    split
    · decide
    · decide
  · simp only [LockPc.rank]
    split
    · decide
    · decide

/-- Then for the upper one. -/
theorem nearer_doubleSecond {p : TaskId} {src dest : ℕ} (hpc : s.pc c = .doubleSecond p src dest)
    (hupper : s.owner (max src dest) = none) : Nearer c s (s.proceed c) := by
  rw [proceed_doubleSecond hpc]
  refine nearer_spinLock hupper ?_
  rw [hpc]
  simp only [LockPc.rank]
  split
  · decide
  · decide

/-- Unless CPU `c` spins on a lock that is held, its own step takes it nearer to the end. -/
theorem nearer_of_free (hinside : s.pc c ≠ .outside)
    (hfree : ∀ l, (s.pc c).wants c = some l → s.owner l = none) :
    Nearer c s (s.proceed c) ∨ Nearer c s (s.unlock c) := by
  unfold proceed unlock
  cases hpc : s.pc c with
  | outside => exact absurd hpc hinside
  | taskRqLocked | taskRqMoved | thisRqLocked | balanceLocked =>
    right
    refine nearer_goto _ ?_
    simp [hpc, LockPc.rank]
  | doubleLocked | doubleMoved =>
    right
    refine nearer_doubleRqUnlock _ _ ?_
    simp [hpc, LockPc.rank]
  | taskRqRead p =>
    left
    refine nearer_goto _ ?_
    simp [hpc, LockPc.rank]
  | taskRqSpin p rq =>
    left
    refine nearer_spinLock (hfree rq (by rw [hpc]; rfl)) ?_
    rw [hpc, LockPc.rank, LockPc.rank]
    split
    · decide
    · decide
  | taskRqCheck p rq =>
    left
    dsimp only
    split
    · -- the task has moved: `p->cpu` is read again, and the rank has room for that
      next hmoved =>
      refine nearer_goto _ ?_
      rw [hpc, LockPc.rank, LockPc.rank, if_neg hmoved]
      decide
    · next hsame =>
      refine nearer_goto _ ?_
      rw [hpc, LockPc.rank, LockPc.rank, if_pos (not_not.mp hsame)]
      decide
  | thisRqSpin | balanceSpin | balanceFirst | balanceSecond =>
    left
    refine nearer_spinLock (hfree _ (by rw [hpc]; rfl)) ?_
    simp [hpc, LockPc.rank]
  | balanceTry busiest =>
    left
    dsimp only
    split
    · -- the lock is free
      next hbusiest =>
      refine nearer_spinLock hbusiest ?_
      simp [hpc, LockPc.rank]
    split
    · refine nearer_goto _ ?_
      simp [hpc, LockPc.rank]
    · refine nearer_goto _ ?_
      simp [hpc, LockPc.rank]
  | doubleRead p dest =>
    left
    refine nearer_goto _ ?_
    simp [hpc, LockPc.rank]
  | doubleFirst p src dest =>
    have hnearer := nearer_doubleFirst hpc (hfree _ (by rw [hpc]; rfl))
    exact .inl (by simpa only [proceed, hpc] using hnearer)
  | doubleSecond p src dest =>
    have hnearer := nearer_doubleSecond hpc (hfree _ (by rw [hpc]; rfl))
    exact .inl (by simpa only [proceed, hpc] using hnearer)
  | doubleCheck p src dest =>
    left
    dsimp only
    split
    · next hmoved =>
      refine nearer_doubleRqUnlock _ _ ?_
      rw [hpc, LockPc.rank, LockPc.rank, if_neg (ne_comm.mp hmoved)]
      decide
    · next hsame =>
      refine nearer_goto _ ?_
      rw [hpc, LockPc.rank, LockPc.rank, if_pos (not_not.mp hsame).symm]
      decide

/-- How far the CPUs of `cpus` are from being outside, taken together. -/
def distance (cpus : Finset ℕ) (s : LockSys) : ℕ :=
  ∑ c ∈ cpus, (s.pc c).rank s.cpuOf

/-- One CPU that comes nearer brings them all nearer. -/
theorem distance_lt {cpus : Finset ℕ} (hc : c ∈ cpus) (h : Nearer c s s') :
    s'.distance cpus < s.distance cpus := by
  obtain ⟨pc, hpc, hcpu, hlt⟩ := h
  refine Finset.sum_lt_sum (fun c' _ => ?_) ⟨c, hc, ?_⟩
  · rw [hcpu]
    rcases pc_update hpc c' with ⟨rfl, hat⟩ | ⟨-, hat⟩
    · rw [hat]
      exact hlt.le
    · rw [hat]
  · rw [hcpu, hpc, Function.update_self]
    exact hlt

/-- A CPU that is not outside, and is not blocked. -/
theorem LockInv.exists_free (h : s.LockInv) (hinside : ∃ c, s.pc c ≠ .outside) :
    ∃ c, s.pc c ≠ .outside ∧ ∀ l, (s.pc c).wants c = some l → s.owner l = none := by
  have howner : ∀ l c, s.owner l = some c → s.pc c ≠ .outside := by
    intro l c howned houtside
    have hholds := (h.owner l c).mp howned
    rw [houtside] at hholds
    exact hholds
  obtain ⟨c, hc, hfree⟩ := exists_not_blocked h.takenInOrder h.finite_owned howner hinside
  refine ⟨c, hc, fun l hwants => ?_⟩
  by_contra howned
  exact hfree ⟨l, hwants, howned⟩

theorem lockInv_of_run (hrun : Run LockStep (start cpuOf) ops s) : s.LockInv :=
  hrun.invariant (fun _ _ _ => lockInv_step) (lockInv_start cpuOf)

/-- **No deadlock.** From every state that a run reaches, the CPUs' own steps, without a new call of
any function, lead to a state in which all of them are outside and all locks are free. -/
theorem exists_run_all_outside (hrun : Run LockStep (start cpuOf) ops s) :
    ∃ ops' s', Run LockStep s ops' s' ∧ (∀ op ∈ ops', ∃ c, op = .proceed c ∨ op = .unlock c) ∧
      (∀ c, s'.pc c = .outside) ∧ ∀ l, s'.owner l = none := by
  have hinv := lockInv_of_run hrun
  -- the CPUs that are inside some function now; no other CPU will be
  obtain ⟨cpus, hcpus⟩ := hinv.finite.exists_finset
  let Idle : LockSys → Prop := fun t => t.LockInv ∧ ∀ c, c ∉ cpus → t.pc c = .outside
  have hidle : Idle s := ⟨hinv, fun c hc => not_not.mp fun hinside => hc ((hcpus c).mpr hinside)⟩
  have hstep : ∀ t, Idle t → t.distance cpus ≠ 0 → ∃ op t', (∃ c, op = .proceed c ∨ op = .unlock c) ∧
      LockStep t op t' ∧ Idle t' ∧ t'.distance cpus < t.distance cpus := by
    rintro t ⟨ht, hrest⟩ hpos
    obtain ⟨c, hc, hinside⟩ := Finset.exists_ne_zero_of_sum_ne_zero hpos
    obtain ⟨c, hinside, hfree⟩ := ht.exists_free ⟨c, fun hout => hinside (by rw [hout]; rfl)⟩
    have hc : c ∈ cpus := not_not.mp fun hc => hinside (hrest c hc)
    have hidle : ∀ op, LockStep t op (op.exec t) → Nearer c t (op.exec t) → Idle (op.exec t) := by
      rintro op step ⟨pc, hpc, -, -⟩
      refine ⟨lockInv_step ht step, fun c' hc' => ?_⟩
      rcases pc_update hpc c' with ⟨rfl, -⟩ | ⟨-, hat⟩
      · exact absurd hc hc'
      · rw [hat]
        exact hrest c' hc'
    rcases nearer_of_free hinside hfree with hnearer | hnearer
    · have step : LockStep t (.proceed c) (t.proceed c) := ⟨trivial, rfl⟩
      exact ⟨.proceed c, _, ⟨c, .inl rfl⟩, step, hidle _ step hnearer, distance_lt hc hnearer⟩
    · have step : LockStep t (.unlock c) (t.unlock c) := ⟨trivial, rfl⟩
      exact ⟨.unlock c, _, ⟨c, .inr rfl⟩, step, hidle _ step hnearer, distance_lt hc hnearer⟩
  obtain ⟨ops', s', hrun', hops', ⟨hend, hrest⟩, hzero⟩ := Run.exists_of_measure hstep hidle
  have hout : ∀ c, s'.pc c = .outside := by
    intro c
    by_contra hinside
    have hc : c ∈ cpus := not_not.mp fun hc => hinside (hrest c hc)
    exact (LockPc.rank_pos hinside).ne' (Finset.sum_eq_zero_iff.mp hzero c hc)
  refine ⟨ops', s', hrun', hops', hout, fun l => ?_⟩
  by_contra howned
  obtain ⟨c, hc⟩ := Option.ne_none_iff_exists'.mp howned
  have hholds := (hend.owner l c).mp hc
  rw [hout c] at hholds
  exact hholds

/-- CPU 0 and CPU 1 have locked their own runqueues, and each balances with the other. -/
theorem exists_run_all_outside_two :
    let ops : List LockOp := [.thisRqLock 0, .thisRqLock 1, .proceed 0, .proceed 1, .loadBalance 0 1,
      .loadBalance 1 0, .proceed 0]
    ∃ s, Run LockStep (start fun _ => 0) ops s ∧ s.pc 0 = .balanceSpin 1 ∧ s.pc 1 = .balanceTry 0 ∧
      s.owner 0 = some 0 ∧ s.owner 1 = some 1 ∧ ∃ ops' s', Run LockStep s ops' s' ∧
        (∀ op ∈ ops', ∃ c, op = .proceed c ∨ op = .unlock c) ∧ (∀ c, s'.pc c = .outside) ∧
          ∀ l, s'.owner l = none := by
  intro ops
  have hrun : Run LockStep (start fun _ => 0) ops _ :=
    Run.cons ⟨rfl, rfl⟩ (Run.cons ⟨rfl, rfl⟩ (Run.cons ⟨trivial, rfl⟩ (Run.cons ⟨trivial, rfl⟩
      (Run.cons ⟨⟨rfl, by decide⟩, rfl⟩ (Run.cons ⟨⟨rfl, by decide⟩, rfl⟩
        (Run.cons ⟨trivial, rfl⟩ (Run.nil _)))))))
  exact ⟨_, hrun, rfl, rfl, rfl, rfl, exists_run_all_outside hrun⟩

/-! ## The lock of the right runqueue -/

/-- `p->cpu` of a forked task is still that of its parent when it was copied. Unless it is that of this
CPU, no CPU may have locked the task's runqueue for it. -/
def LockSafe (s : LockSys) : LockOp → Prop
  | .wakeForked c p => s.cpuOf p = c ∨ ∀ c' rq, ¬(s.pc c').Guards p rq
  | _ => True

/-- No other CPU relies on the runqueue of a task whose lock this one holds. -/
theorem LockInv.not_guards (h : s.LockInv) (hkept : s.Kept) (howned : s.owner (s.cpuOf p) = some c)
    {c' : ℕ} (hne : c' ≠ c) (rq : ℕ) : ¬(s.pc c').Guards p rq := by
  intro hguard
  have howned' := (h.owner rq c').mpr (hguard.holds c')
  rw [← hkept c' p rq hguard, howned] at howned'
  exact hne (Option.some.inj howned').symm

namespace Kept

/-- A step of CPU `c` that leaves `p->cpu` alone. -/
theorem step (h : s.Kept) (hpc : s'.pc = Function.update s.pc c pc) (hcpu : s'.cpuOf = s.cpuOf)
    (hguards : ∀ p rq, pc.Guards p rq → s.cpuOf p = rq) : s'.Kept := by
  intro c' p rq hguard
  rw [hcpu]
  rcases pc_update hpc c' with ⟨rfl, hat⟩ | ⟨-, hat⟩
  · rw [hat] at hguard
    exact hguards p rq hguard
  · rw [hat] at hguard
    exact h c' p rq hguard

/-- CPU `c` goes on without relying on anything. -/
theorem goto (h : s.Kept) (owner : ℕ → Option ℕ) (hnot : ∀ p rq, ¬pc.Guards p rq) :
    ({ s with owner := owner }.goto c pc).Kept :=
  h.step rfl rfl fun p rq hguard => absurd hguard (hnot p rq)

theorem spinLock (h : s.Kept) (hnot : ∀ p rq, ¬pc.Guards p rq) : (s.spinLock c l pc).Kept := by
  unfold LockSys.spinLock
  split
  · exact h.goto _ hnot
  · exact h

theorem doubleRqUnlock (h : s.Kept) (src dest : ℕ) (hnot : ∀ p rq, ¬pc.Guards p rq) :
    ((s.doubleRqUnlock src dest).goto c pc).Kept := by
  rw [doubleRqUnlock_eq]
  exact h.goto _ hnot

/-- `p->cpu` is set. -/
theorem setCpu_iff (h : s.Kept) :
    (s.setCpu p cpu).Kept ↔ s.cpuOf p = cpu ∨ ∀ c rq, ¬(s.pc c).Guards p rq := by
  constructor
  · intro hkept
    by_cases hcpu : s.cpuOf p = cpu
    · exact .inl hcpu
    · refine .inr fun c rq hguard => hcpu ?_
      rw [h c p rq hguard, ← hkept c p rq hguard]
      exact Function.update_self ..
  · intro hsafe c q rq hguard
    show Function.update s.cpuOf p cpu q = rq
    by_cases hq : q = p
    · subst hq
      rcases hsafe with hcpu | hnot
      · rw [Function.update_self, ← hcpu]
        exact h c q rq hguard
      · exact absurd hguard (hnot c rq)
    · rw [Function.update_of_ne hq]
      exact h c q rq hguard

/-- `spin_lock` and the tests write no `p->cpu`. -/
theorem proceed (h : s.Kept) (c : ℕ) : (s.proceed c).Kept := by
  unfold LockSys.proceed
  cases hpc : s.pc c with
  | taskRqCheck p rq =>
    dsimp only
    split
    · exact h.goto _ fun _ _ => id
    · next hsame =>
      refine h.step rfl rfl fun q rq' hguard => ?_
      -- the check has just been made, under the lock
      obtain ⟨rfl, rfl⟩ : p = q ∧ rq = rq' := hguard
      exact (not_not.mp hsame).symm
  | doubleCheck p src dest =>
    dsimp only
    split
    · exact h.doubleRqUnlock _ _ fun _ _ => id
    · next hsame =>
      refine h.step rfl rfl fun q rq hguard => ?_
      obtain ⟨rfl, rfl⟩ : p = q ∧ src = rq := hguard
      exact not_not.mp hsame
  | taskRqRead | doubleRead => exact h.goto _ fun _ _ => id
  | taskRqSpin | thisRqSpin | balanceSpin | balanceFirst | balanceSecond =>
    exact h.spinLock fun _ _ => id
  | balanceTry busiest =>
    dsimp only
    split
    · exact h.spinLock fun _ _ => id
    split
    · exact h.goto _ fun _ _ => id
    · exact h.goto _ fun _ _ => id
  | doubleFirst p src dest =>
    dsimp only
    split
    · exact h.spinLock fun _ _ => id
    split
    · exact h.spinLock fun _ _ => id
    · exact h.spinLock fun _ _ => id
  | doubleSecond p src dest =>
    dsimp only
    split
    · exact h.spinLock fun _ _ => id
    · exact h.spinLock fun _ _ => id
  | _ => exact h

theorem unlock (h : s.Kept) (c : ℕ) : (s.unlock c).Kept := by
  unfold LockSys.unlock
  cases hpc : s.pc c with
  | taskRqLocked | taskRqMoved | thisRqLocked | balanceLocked => exact h.goto _ fun _ _ => id
  | doubleLocked | doubleMoved => exact h.doubleRqUnlock _ _ fun _ _ => id
  | _ => exact h

/-- The CPU that holds the lock of the task's runqueue sets `p->cpu`, and goes on. -/
theorem setCpu_goto (h : s.Kept) (hinv : s.LockInv) (howned : s.owner (s.cpuOf p) = some c)
    (hnot : ∀ q rq, ¬pc.Guards q rq) (cpu : ℕ) : ((s.setCpu p cpu).goto c pc).Kept := by
  have hgone : (s.goto c pc).Kept := h.goto _ hnot
  show ((s.goto c pc).setCpu p cpu).Kept
  refine hgone.setCpu_iff.mpr (.inr fun c' rq hguard => ?_)
  have hpc : (s.goto c pc).pc = Function.update s.pc c pc := rfl
  rcases pc_update hpc c' with ⟨rfl, hat⟩ | ⟨hne, hat⟩
  · rw [hat] at hguard
    exact hnot p rq hguard
  · rw [hat] at hguard
    exact hinv.not_guards h howned hne rq hguard

end Kept

/-- **The step lemma.** -/
theorem kept_step_iff (hinv : s.LockInv) (h : s.Kept) (hstep : LockStep s op s') :
    s'.Kept ↔ LockSafe s op := by
  obtain ⟨henabled, rfl⟩ := hstep
  cases op with
  | wakeForked c p => exact h.setCpu_iff
  | taskRqLock | thisRqLock | loadBalance | migrate =>
    exact iff_of_true (h.goto _ fun _ _ => id) trivial
  | proceed c => exact iff_of_true (h.proceed c) trivial
  | unlock c => exact iff_of_true (h.unlock c) trivial
  | setTaskCpu c cpu =>
    refine iff_of_true ?_ trivial
    obtain ⟨p, rq, hpc⟩ := henabled
    have hcpu : s.cpuOf p = rq := h c p rq (by rw [hpc]; exact ⟨rfl, rfl⟩)
    have howned : s.owner (s.cpuOf p) = some c := (hinv.owner _ c).mpr (by rw [hpc, hcpu]; rfl)
    simp only [LockOp.exec, hpc]
    exact h.setCpu_goto hinv howned (fun _ _ => id) cpu
  | pull c p =>
    refine iff_of_true ?_ trivial
    have hpc : s.pc c = .balanceLocked (s.cpuOf p) := henabled
    have howned : s.owner (s.cpuOf p) = some c :=
      (hinv.owner _ c).mpr (by rw [hpc]; exact .inr rfl)
    -- nobody else has locked the runqueue that the task leaves
    refine h.setCpu_iff.mpr (.inr fun c' rq hguard => ?_)
    by_cases hne : c' = c
    · subst hne
      rw [hpc] at hguard
      exact hguard
    · exact hinv.not_guards h howned hne rq hguard
  | move c =>
    refine iff_of_true ?_ trivial
    obtain ⟨p, dest, hpc⟩ := henabled
    have hcpu : s.cpuOf p = c := h c p c (by rw [hpc]; exact ⟨rfl, rfl⟩)
    have howned : s.owner (s.cpuOf p) = some c :=
      (hinv.owner _ c).mpr (by rw [hpc, hcpu]; exact .inl rfl)
    simp only [LockOp.exec, hpc]
    exact h.setCpu_goto hinv howned (fun _ _ => id) dest

/-- Who has locked a task's runqueue for it has the lock of the runqueue that the task is on, and is
the only one. -/
def RightLock (s : LockSys) : Prop :=
  ∀ c p rq, (s.pc c).Guards p rq → s.cpuOf p = rq ∧ s.owner rq = some c ∧
    ∀ c' rq', (s.pc c').Guards p rq' → c' = c

/-- The right lock is held if and only if no guarded task moves. -/
theorem LockInv.rightLock_iff_kept (hinv : s.LockInv) : s.RightLock ↔ s.Kept := by
  refine ⟨fun h c p rq hguard => (h c p rq hguard).1, fun h c p rq hguard => ?_⟩
  have hcpu := h c p rq hguard
  have howned : s.owner rq = some c := (hinv.owner rq c).mpr (hguard.holds c)
  refine ⟨hcpu, howned, fun c' rq' hguard' => ?_⟩
  -- two CPUs would hold one lock
  by_contra hne
  exact hinv.not_guards h (hcpu ▸ howned) hne rq' hguard'

theorem lockStep_functional {t u : LockSys} (ht : LockStep s op t) (hu : LockStep s op u) : t = u :=
  ht.2.symm.trans hu.2

/-- **The lock of the right runqueue.** In every state of a run, a CPU whose `task_rq_lock(p)` has
returned, or whose migration thread has both locks, holds the lock of the runqueue that `p` is on and
no other CPU has locked it for `p`, iff `wake_up_forked_process` never takes a task from a runqueue that
some CPU has locked for it. The promise ends with the unlock, and with the holder's own write of
`p->cpu` (`taskRqMoved`, `doubleMoved`). -/
theorem rightLock_iff_lockSafe (hrun : Run LockStep (start cpuOf) ops s) :
    (∀ pre post t, ops = pre ++ post → Run LockStep (start cpuOf) pre t → t.RightLock) ↔
      ∀ pre op post t, ops = pre ++ op :: post → Run LockStep (start cpuOf) pre t →
        LockSafe t op := by
  have hfun : ∀ s op t u, LockStep s op t → LockStep s op u → t = u :=
    fun _ _ _ _ => lockStep_functional
  rw [← Run.always_iff hfun (fun _ _ _ => lockInv_step) (fun _ _ _ => kept_step_iff) hrun
    (lockInv_start cpuOf) (kept_start cpuOf)]
  -- `RightLock` and `Kept` say the same of a state that is reached
  refine forall_congr' fun pre => forall_congr' fun post => forall_congr' fun t => ?_
  refine imp_congr_right fun _ => imp_congr_right fun ht => ?_
  exact (lockInv_of_run ht).rightLock_iff_kept

/-- CPU 0 wakes the forked task 7, whose parent has come from CPU 1, while CPU 2 has locked its old
runqueue for it. -/
theorem rightLock_iff_lockSafe_overtaken :
    let ops : List LockOp := [.taskRqLock 2 7, .proceed 2, .proceed 2, .proceed 2, .thisRqLock 0,
      .proceed 0, .wakeForked 0 7]
    ∃ s, Run LockStep (start fun _ => 1) ops s ∧ s.pc 2 = .taskRqLocked 7 1 ∧ s.cpuOf 7 = 0 ∧
      ∃ pre op post t, ops = pre ++ op :: post ∧ Run LockStep (start fun _ => 1) pre t ∧
        ¬LockSafe t op := by
  intro ops
  have hrun : Run LockStep (start fun _ => 1) ops _ :=
    Run.cons ⟨rfl, rfl⟩ (Run.cons ⟨trivial, rfl⟩ (Run.cons ⟨trivial, rfl⟩ (Run.cons ⟨trivial, rfl⟩
      (Run.cons ⟨rfl, rfl⟩ (Run.cons ⟨trivial, rfl⟩ (Run.cons ⟨rfl, rfl⟩ (Run.nil _)))))))
  refine ⟨_, hrun, rfl, rfl, ?_⟩
  by_contra hnone
  simp only [not_exists, not_and, not_not] at hnone
  have hright := (rightLock_iff_lockSafe hrun).mpr hnone ops [] _ (List.append_nil ops).symm hrun
  exact absurd (hright 2 7 1 ⟨rfl, rfl⟩).1 Nat.zero_ne_one

end LockSys
end ShortSched
