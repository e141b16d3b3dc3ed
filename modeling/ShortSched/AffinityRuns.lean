import ShortSched.Affinity

/-!
# Affinity over whole runs

* `affine_iff_migSafe`: when `set_cpus_allowed`, the migration threads, `do_fork` and the load
  balancer together leave every task where it may be.
* `confined_of_run`: the CPUs that a task and its descendants can get to.
-/

namespace ShortSched

open General

namespace MigSys

variable {s s' : MigSys} {c : ℕ} {p t child : TaskId} {op : MigOp} {ops : List MigOp} {M : ℕ → Prop}
  {D D' : Set TaskId}

/-! ## The steps that change masks -/

/-- Who has `CAP_SYS_NICE` adds CPUs to the mask of `p`. -/
theorem maskHas_widened (p q : TaskId) (added : UInt32) (cpu : ℕ) (s : MigSys) :
    MaskHas ((s.modify p fun t =>
      { t with cpusAllowedMask := t.cpusAllowedMask ||| added }).task q).cpusAllowedMask cpu ↔
      MaskHas (s.task q).cpusAllowedMask cpu ∨ q = p ∧ MaskHas added cpu := by
  rcases modify_task_cases p q (fun t => { t with
    cpusAllowedMask := t.cpusAllowedMask ||| added }) s with ⟨rfl, hat⟩ | ⟨hne, hat⟩
  · rw [hat, maskHas_or, and_iff_right rfl]
  · rw [hat, or_iff_left fun h => hne h.1]

/-- More bits in a mask change no other field. -/
theorem allowed_widened (p q : TaskId) (added : UInt32) (s : MigSys) :
    ((s.modify p fun t =>
      { t with cpusAllowedMask := t.cpusAllowedMask ||| added }).task q).cpusAllowed =
      (s.task q).cpusAllowed := by
  rcases modify_task_cases p q (fun t => { t with
    cpusAllowedMask := t.cpusAllowedMask ||| added }) s with ⟨rfl, hat⟩ | ⟨-, hat⟩
  · rw [hat]
  · rw [hat]

/-- The masks after `sys_sched_setaffinity`. -/
theorem MaskInv.sysSchedSetaffinity (h : s.MaskInv) (c : ℕ) (p : TaskId) (userMask : UInt32) :
    (s.sysSchedSetaffinity c p userMask).MaskInv := by
  obtain ⟨s₁, hs₁, hresult⟩ := sysSchedSetaffinity_cases c p userMask s
  have h₁ : s₁.MaskInv ∧ s₁.cpuOnlineMap = s.cpuOnlineMap := by
    rcases hs₁ with rfl | ⟨-, rfl⟩
    · exact ⟨h, rfl⟩
    refine ⟨⟨fun q hq cpu hhas => ?_, h.nonzero, h.online, fun t q newMask cpu hset hhas => ?_⟩,
      rfl⟩
    · rw [allowed_widened] at hhas
      exact (maskHas_widened p q _ cpu s).mpr (.inl (h.allowed q hq cpu hhas))
    · exact (maskHas_widened p q _ cpu s).mpr (.inl (h.mask t q newMask cpu hset hhas))
  obtain ⟨hinv, honline⟩ := h₁
  rcases hresult with heq | ⟨newMask, hnonzero, hnew, heq⟩
  · rwa [heq]
  rw [heq]
  have hset : ∀ t q m, (s₁.goto (s.curr c) (.setting p newMask)).pc t = .setting q m →
      q = p ∧ m = newMask ∨ s₁.pc t = .setting q m := by
    intro t q m hset
    rcases goto_pc_cases (s.curr c) t (.setting p newMask) s₁ with ⟨-, hat⟩ | ⟨-, hat⟩
    · obtain ⟨rfl, rfl⟩ := TaskPc.setting.inj (hat.symm.trans hset)
      exact .inl ⟨rfl, rfl⟩
    · exact .inr (hat.symm.trans hset)
  refine ⟨hinv.allowed, fun t q m hm => ?_, fun t q m cpu hm hhas => ?_,
    fun t q m cpu hm hhas => ?_⟩
  · rcases hset t q m hm with ⟨-, rfl⟩ | hm
    · exact hnonzero
    · exact hinv.nonzero t q m hm
  · rcases hset t q m hm with ⟨-, rfl⟩ | hm
    · show MaskHas s₁.cpuOnlineMap cpu
      rw [honline]
      exact (hnew cpu hhas).1
    · exact hinv.online t q m cpu hm hhas
  · rcases hset t q m hm with ⟨rfl, rfl⟩ | hm
    · exact (hnew cpu hhas).2
    · exact hinv.mask t q m cpu hm hhas

/-- The masks after `set_cpus_allowed`. -/
theorem setCpusAllowed_masks {newMask : UInt32} (hpc : s.pc (s.curr c) = .setting p newMask) :
    s.setCpusAllowed c = s ∨
      (((s.setCpusAllowed c).task p).cpusAllowed = newMask &&& s.cpuOnlineMap ∧
        (∀ q, q ≠ p → (s.setCpusAllowed c).task q = s.task q) ∧
        (∀ q, ((s.setCpusAllowed c).task q).cpusAllowedMask = (s.task q).cpusAllowedMask) ∧
        (s.setCpusAllowed c).cpuOnlineMap = s.cpuOnlineMap ∧
        ∀ t q m, (s.setCpusAllowed c).pc t = .setting q m → s.pc t = .setting q m) := by
  rcases setCpusAllowed_cases hpc with ⟨-, heq⟩ | ⟨-, hcases⟩
  · exact .inl heq
  right
  set mask := newMask &&& s.cpuOnlineMap
  set s₁ := s.modify p fun t => { t with cpusAllowed := mask } with hs₁
  have hset : s₁.task p = { s.task p with cpusAllowed := mask } := modify_task_self ..
  have hmasks : ∀ q, (s₁.task q).cpusAllowedMask = (s.task q).cpusAllowedMask := by
    intro q
    rcases modify_task_cases p q (fun t => { t with cpusAllowed := mask }) s with
      ⟨rfl, hat⟩ | ⟨-, hat⟩
    · rw [hs₁, hat]
    · rw [hs₁, hat]
  have hrest : ∀ q, q ≠ p → s₁.task q = s.task q := fun q hq => modify_task_of_ne hq _ s
  -- where the caller goes, it is not about to call `set_cpus_allowed`
  have hleft : ∀ {s₂ : MigSys} {pc : TaskPc}, s₂.pc = s.pc → (∀ q m, pc ≠ .setting q m) →
      ∀ t q m, (s₂.goto (s.curr c) pc).pc t = .setting q m → s.pc t = .setting q m := by
    intro s₂ pc hpcs hno t q m hset
    rcases goto_pc_cases (s.curr c) t pc s₂ with ⟨-, hat⟩ | ⟨-, hat⟩
    · exact absurd (hat.symm.trans hset) (hno q m)
    · rw [← hpcs]
      exact hat.symm.trans hset
  rcases hcases with ⟨-, heq⟩ | ⟨-, -, -, heq⟩ | ⟨-, -, heq⟩
  · rw [heq]
    exact ⟨congrArg MigTask.cpusAllowed hset, hrest, hmasks, rfl,
      hleft rfl fun _ _ => TaskPc.noConfusion⟩
  · rw [heq]
    refine ⟨?_, fun q hq => ?_, fun q => ?_, rfl, hleft rfl fun _ _ => TaskPc.noConfusion⟩
    · rw [goto_task, modify_task_self, hset]
    · rw [goto_task, modify_task_of_ne hq, hrest q hq]
    · rw [goto_task, ← hmasks q]
      rcases modify_task_cases p q (fun t => { t with cpu := ffs t.cpusAllowed }) s₁ with
        ⟨rfl, hat⟩ | ⟨-, hat⟩
      · rw [hat]
      · rw [hat]
  · rw [heq]
    exact ⟨congrArg MigTask.cpusAllowed hset, hrest, hmasks, rfl,
      hleft rfl fun _ _ => TaskPc.noConfusion⟩

/-- `set_cpus_allowed` writes the mask that `sys_sched_setaffinity` has checked. -/
theorem MaskInv.setCpusAllowed {newMask : UInt32} (h : s.MaskInv)
    (hpc : s.pc (s.curr c) = .setting p newMask) : (s.setCpusAllowed c).MaskInv := by
  have hstep : MigStep s (.setCpusAllowed c) (s.setCpusAllowed c) := ⟨⟨p, newMask, hpc⟩, rfl⟩
  rcases setCpusAllowed_masks hpc with heq | ⟨hallowed, hrest, hmasks, honline, hsetting⟩
  · rwa [heq]
  refine ⟨fun q hord cpu hhas => ?_, fun t q m hm => h.nonzero t q m (hsetting t q m hm),
    fun t q m cpu hm hhas => ?_, fun t q m cpu hm hhas => ?_⟩
  · rw [hmasks]
    by_cases hq : q = p
    · -- the new mask was cut down by `cpus_allowed_mask` before the call
      rw [hq, hallowed] at hhas
      rw [hq]
      exact h.mask _ p newMask cpu hpc (maskHas_and.mp hhas).1
    · rw [hrest q hq] at hhas
      exact h.allowed q ((ordinary_step hstep).mp hord) cpu hhas
  · rw [honline]
    exact h.online t q m cpu (hsetting t q m hm) hhas
  · rw [hmasks]
    exact h.mask t q m cpu (hsetting t q m hm) hhas

/-- `p->cpus_allowed_mask &= p->cpus_allowed` -/
theorem copyTask_masks (c : ℕ) (child : TaskId) (s : MigSys) :
    ((s.copyTask c child).task child).cpusAllowed = (s.task (s.curr c)).cpusAllowed ∧
      ((s.copyTask c child).task child).cpusAllowedMask =
        (s.task (s.curr c)).cpusAllowedMask &&& (s.task (s.curr c)).cpusAllowed ∧
      (∀ q, q ≠ child → (s.copyTask c child).task q = s.task q) ∧
      ∀ t q m, (s.copyTask c child).pc t = .setting q m → s.pc t = .setting q m := by
  have hchild : (s.copyTask c child).task child = _ := Function.update_self ..
  refine ⟨by rw [hchild], by rw [hchild], fun q hq => Function.update_of_ne hq .., ?_⟩
  intro t q m hset
  rcases goto_pc_cases (s.curr c) t (.forking child) s with ⟨-, hat⟩ | ⟨-, hat⟩
  · cases hat.symm.trans hset
  · exact hat.symm.trans hset

/-- A child has the masks of its parent. -/
theorem MaskInv.copyTask (h : s.MaskInv) (hparent : s.Ordinary (s.curr c))
    (hfresh : MigOp.Fresh s child) : (s.copyTask c child).MaskInv := by
  obtain ⟨hallowed, hmask, hrest, hsetting⟩ := copyTask_masks c child s
  refine ⟨fun q hord cpu hhas => ?_, fun t q m hm => h.nonzero t q m (hsetting t q m hm),
    fun t q m cpu hm hhas => h.online t q m cpu (hsetting t q m hm) hhas,
    fun t q m cpu hm hhas => ?_⟩
  · by_cases hq : q = child
    · rw [hq, hallowed] at hhas
      rw [hq, hmask]
      exact maskHas_and.mpr ⟨h.allowed _ hparent cpu hhas, hhas⟩
    · rw [hrest q hq] at hhas ⊢
      exact h.allowed q hord cpu hhas
  · have hset := hsetting t q m hm
    -- nobody sets the mask of a task that is being copied
    have hq : q ≠ child := by
      rintro rfl
      exact hfresh.unset t m hset
    rw [hrest q hq]
    exact h.mask t q m cpu hset hhas

/-- **Every step** keeps the masks of ordinary tasks. -/
theorem maskInv_step (h : s.MaskInv) (hstep : MigStep s op s') : s'.MaskInv := by
  have hrest : (∀ c child, op ≠ .copyTask c child) →
      (∀ c p userMask, op ≠ .sysSchedSetaffinity c p userMask) → (∀ c, op ≠ .setCpusAllowed c) →
      s'.MaskInv := fun hfork hset hcall =>
    h.congr (sameMasks_step hstep hfork hset hcall) fun _ => (ordinary_step hstep).mp
  cases op with
  | copyTask c child =>
    obtain ⟨⟨hparent, -, hfresh⟩, rfl⟩ := hstep
    exact h.copyTask hparent hfresh
  | sysSchedSetaffinity c p userMask =>
    obtain ⟨-, rfl⟩ := hstep
    exact h.sysSchedSetaffinity c p userMask
  | setCpusAllowed c =>
    obtain ⟨⟨p, newMask, hpc⟩, rfl⟩ := hstep
    exact h.setCpusAllowed hpc
  | _ =>
    exact hrest (fun _ _ => MigOp.noConfusion) (fun _ _ _ => MigOp.noConfusion)
      fun _ => MigOp.noConfusion

/-! ## Placement -/

theorem sparingStep_functional {t u : MigSys} (ht : SparingStep s op t) (hu : SparingStep s op u) :
    t = u :=
  ht.2.2.symm.trans hu.2.2

/-- **Affinity.** In every state of a run, every task is on a CPU that it may use or is left to the
migration thread of its CPU, a CPU runs only such tasks, and a migration thread has chosen a CPU
that the task may use, iff no step of the run changes the mask of a task under a migration thread
that has read it, or forks a task that is not where it may be, or puts a child where it may not
be. -/
theorem affine_iff_migSafe (hinv : s.MigInv) (hmask : s.MaskInv) (haffine : s.Affine)
    (hrun : Run SparingStep s ops s') :
    (∀ pre post t, ops = pre ++ post → Run SparingStep s pre t → t.Affine) ↔
      ∀ pre op post t, ops = pre ++ op :: post → Run SparingStep s pre t → MigSafe t op := by
  have hfun : ∀ s op t u, SparingStep s op t → SparingStep s op u → t = u :=
    fun _ _ _ _ => sparingStep_functional
  have hinvs : ∀ t op t', t.MigInv ∧ t.MaskInv → SparingStep t op t' → t'.MigInv ∧ t'.MaskInv :=
    fun _ _ _ h hstep => ⟨migInv_step h.1 hstep, maskInv_step h.2 hstep.2⟩
  exact Run.always_iff hfun hinvs (fun _ _ _ h => affine_step_iff h.1 h.2) hrun ⟨hinv, hmask⟩
    haffine

/-! ## A machine that has just booted -/

/-- CPU `c` runs its idle task `3 * c`, its migration thread is task `3 * c + 1`, and task
`3 * c + 2` is queued there if `c` is less than 4. `migration_init` has forked the migration threads
while it was bound to CPU 0, and each has bound itself to its own CPU. -/
def boot (cpuOnlineMap : UInt32) : MigSys where
  task t := { cpu := t / 3
              cpusAllowed := if t % 3 = 1 then 1 <<< UInt32.ofNat (t / 3) else 0xffffffff
              cpusAllowedMask := if t % 3 = 1 then 1 else 0xffffffff
              queued := t % 3 = 2 ∧ t < 12 }
  pc _ := .outside
  sem _ := 0
  curr c := 3 * c
  migrationQueue _ := []
  thread _ := .sleeps
  idle c := 3 * c
  migrationThread c := 3 * c + 1
  cpuOnlineMap := cpuOnlineMap

theorem ordinary_boot (cpuOnlineMap : UInt32) {p : ℕ} (h : p % 3 = 2) :
    (boot cpuOnlineMap).Ordinary p := by
  intro c
  show p ≠ 3 * c ∧ p ≠ 3 * c + 1
  omega

/-- The tasks that are not migration threads may run anywhere. -/
theorem boot_masks (cpuOnlineMap : UInt32) {p : ℕ} (h : (boot cpuOnlineMap).Ordinary p) :
    ((boot cpuOnlineMap).task p).cpusAllowed = 0xffffffff ∧
      ((boot cpuOnlineMap).task p).cpusAllowedMask = 0xffffffff := by
  have hne : p ≠ 3 * (p / 3) + 1 := (h (p / 3)).2
  have hnot : ¬p % 3 = 1 := by omega
  exact ⟨if_neg hnot, if_neg hnot⟩

theorem not_ordinary_idle (s : MigSys) (c : ℕ) : ¬s.Ordinary (s.idle c) :=
  fun hord => (hord c).1 rfl

/-- No request is pending after boot. -/
theorem migInv_boot (cpuOnlineMap : UInt32) : (boot cpuOnlineMap).MigInv where
  req := ⟨fun _ _ => iff_of_false (List.not_mem_nil) fun hasks => hasks.1, fun _ => List.nodup_nil⟩
  embryo _ _ := TaskPc.noConfusion
  curr_cpu c := Nat.mul_div_cancel_left c (by decide)
  idle_cpu c := Nat.mul_div_cancel_left c (by decide)
  thread_cpu c := by
    show (3 * c + 1) / 3 = c
    omega
  running c hord := absurd hord (not_ordinary_idle _ c)
  inside _ hin := absurd rfl hin
  setting _ _ _ := TaskPc.noConfusion
  asked _ _ _ hasks := hasks.elim
  allowed p := by
    show (if p % 3 = 1 then _ else _) ≠ (0 : UInt32)
    split
    · exact one_shiftLeft_ne_zero _
    · decide
  busy _ hbusy := hbusy.elim
  works _ hworks := absurd rfl hworks
  noticed _ hqueue := absurd rfl hqueue
  woken _ _ _ := TaskPc.noConfusion
  finite := by
    refine Set.finite_empty.subset fun t ht => ?_
    exact ht rfl

theorem maskInv_boot (cpuOnlineMap : UInt32) : (boot cpuOnlineMap).MaskInv :=
  ⟨fun p hp cpu hhas => by
      obtain ⟨hallowed, hmask⟩ := boot_masks cpuOnlineMap hp
      rw [hallowed] at hhas
      rwa [hmask],
    fun _ _ _ => TaskPc.noConfusion, fun _ _ _ _ => TaskPc.noConfusion,
    fun _ _ _ _ => TaskPc.noConfusion⟩

theorem maskHas_all (cpu : ℕ) : MaskHas 0xffffffff cpu := by
  rw [maskHas_iff]
  have hlt : cpu % 32 < 32 := Nat.mod_lt cpu (by decide)
  show (2 ^ 32 - 1).testBit (cpu % 32) = true
  rw [Nat.testBit_two_pow_sub_one]
  exact decide_eq_true hlt

theorem affine_boot (cpuOnlineMap : UInt32) : (boot cpuOnlineMap).Affine :=
  (migInv_boot cpuOnlineMap).affine_iff.mpr
    ⟨fun p hp => .inl (by
      rw [(boot_masks cpuOnlineMap hp).1]
      exact maskHas_all _), fun _ _ _ => ThreadPc.noConfusion⟩

theorem maySwitch_of_outside (hpc : s.pc (s.curr c) = .outside)
    (hthread : s.curr c ≠ s.migrationThread c) : s.MaySwitch c := by
  refine ⟨fun p newMask => ?_, fun p rq => ?_, fun heq => absurd heq hthread⟩
  · rw [hpc]
    exact TaskPc.noConfusion
  · rw [hpc]
    exact TaskPc.noConfusion

/-- Task 5 on CPU 1 lets task 2 run on CPU 1 only. When the migration thread of CPU 0 has read this,
task 8 on CPU 2 lets task 2 run on CPU 2 only, and the thread takes it to CPU 1. -/
theorem affine_iff_migSafe_raced :
    let ops : List MigOp := [.schedule 1 5 false, .schedule 2 8 false, .sysSchedSetaffinity 1 2 2,
      .setCpusAllowed 1, .wakeThread 1, .schedule 0 1 false, .migrationThread 0, .migrationThread 0,
      .sysSchedSetaffinity 2 2 4, .setCpusAllowed 2, .migrationThread 0]
    ∃ s, Run SparingStep (boot 0xff) ops s ∧ (s.task 2).cpu = 1 ∧ (s.task 2).cpusAllowed = 4 ∧
      s.unserved 1 = [] ∧ ∃ pre op post t, ops = pre ++ op :: post ∧
        Run SparingStep (boot 0xff) pre t ∧ ¬MigSafe t op := by
  intro ops
  have hord : ∀ {p : ℕ}, p % 3 = 2 → (boot 0xff).Ordinary p := ordinary_boot 0xff
  have hno : false = true → ∀ (p : TaskId) (rq : ℕ) (s : MigSys) (c : ℕ),
      s.pc (s.curr c) = .waits p rq → s.sem (s.curr c) = 0 := fun h => absurd h (by decide)
  have hrun : Run SparingStep (boot 0xff) ops _ :=
    Run.cons ⟨trivial, ⟨maySwitch_of_outside rfl (by decide), rfl,
        .inr (.inr ⟨hord (p := 5) rfl, rfl⟩), fun h p rq => hno h p rq _ _⟩, rfl⟩
      (Run.cons ⟨trivial, ⟨maySwitch_of_outside rfl (by decide), rfl,
          .inr (.inr ⟨hord (p := 8) rfl, rfl⟩), fun h p rq => hno h p rq _ _⟩, rfl⟩
        (Run.cons ⟨hord (p := 2) rfl, ⟨hord (p := 5) rfl, rfl⟩, rfl⟩
          (Run.cons ⟨trivial, ⟨2, 2, rfl⟩, rfl⟩ (Run.cons ⟨trivial, ⟨2, 0, rfl⟩, rfl⟩
            (Run.cons ⟨trivial, ⟨maySwitch_of_outside rfl (by decide), rfl,
                .inr (.inl ⟨rfl, by decide⟩), fun h p rq => hno h p rq _ _⟩, rfl⟩
              (Run.cons ⟨trivial, ⟨rfl, by decide⟩, rfl⟩
                (Run.cons ⟨trivial, ⟨rfl, by decide⟩, rfl⟩
                  (Run.cons ⟨hord (p := 2) rfl, ⟨hord (p := 8) rfl, rfl⟩, rfl⟩
                    (Run.cons ⟨trivial, ⟨2, 4, rfl⟩, rfl⟩
                      (Run.cons ⟨trivial, ⟨rfl, by decide⟩, rfl⟩ (Run.nil _)))))))))))
  have hend : ∀ {s}, Run SparingStep (boot 0xff) ops s → (s.task 2).cpu = 1 →
      (s.task 2).cpusAllowed = 4 → s.unserved 1 = [] → s.Ordinary 2 → ∃ pre op post t,
        ops = pre ++ op :: post ∧ Run SparingStep (boot 0xff) pre t ∧ ¬MigSafe t op := by
    intro s hrun hcpu hallowed hunserved hord
    by_contra hnone
    simp only [not_exists, not_and, not_not] at hnone
    have haffine := (affine_iff_migSafe (migInv_boot _) (maskInv_boot _) (affine_boot _) hrun).mpr
      hnone ops [] s (List.append_nil ops).symm hrun
    have hplaced := haffine.placed 2 hord
    rw [hcpu, hallowed, hunserved] at hplaced
    rcases hplaced with hhas | ⟨req, hreq, -⟩
    · exact absurd hhas (by decide)
    · cases hreq
  exact ⟨_, hrun, rfl, rfl, rfl, hend hrun rfl rfl rfl (hord (p := 2) rfl)⟩

/-! ## Confinement -/

/-- A task and whom it has forked: who belongs to them after a step. -/
def descend (s : MigSys) (op : MigOp) (D : Set TaskId) : Set TaskId :=
  match op with
  | .copyTask c child => {p | p = child ∧ s.curr c ∈ D ∨ p ≠ child ∧ p ∈ D}
  | _ => D

/-- Nobody with `CAP_SYS_NICE` gives them other CPUs than those of `M`. -/
def KeptWithin (M : ℕ → Prop) (x : MigSys × Set TaskId) : MigOp → Prop
  | .sysSchedSetaffinity c p userMask => (x.1.task (x.1.curr c)).capSysNice = true → p ∈ x.2 →
      ∀ cpu, MaskHas userMask cpu → M cpu
  | _ => True

/-- The masks of the tasks have no other CPUs than those of `M`. -/
def Within (M : ℕ → Prop) (D : Set TaskId) (s : MigSys) : Prop :=
  ∀ p ∈ D, ∀ cpu, MaskHas (s.task p).cpusAllowedMask cpu → M cpu

theorem within_of_mask (h : s.Within M D) (hD : D' ⊆ D)
    (hmask : ∀ p, (s'.task p).cpusAllowedMask = (s.task p).cpusAllowedMask) : s'.Within M D' := by
  intro p hp cpu hhas
  rw [hmask] at hhas
  exact h p (hD hp) cpu hhas

/-- **A mask that bounds** a task and its descendants bounds them after every step. -/
theorem within_step (h : s.Within M D) (hkept : KeptWithin M (s, D) op) (hstep : MigStep s op s') :
    s'.Within M (descend s op D) := by
  have hrest : (∀ c child, op ≠ .copyTask c child) →
      (∀ c p userMask, op ≠ .sysSchedSetaffinity c p userMask) → (∀ c, op ≠ .setCpusAllowed c) →
      s'.Within M D := fun hfork hset hcall =>
    within_of_mask h subset_rfl (sameMasks_step hstep hfork hset hcall).mask
  cases op with
  | copyTask c child =>
    obtain ⟨-, rfl⟩ := hstep
    obtain ⟨-, hmask, hothers, -⟩ := copyTask_masks c child s
    rintro p (⟨rfl, hparent⟩ | ⟨hne, hp⟩) cpu hhas
    · -- the child gets the part of its parent's mask that its parent may use
      have hhas : MaskHas ((s.copyTask c p).task p).cpusAllowedMask cpu := hhas
      rw [hmask] at hhas
      exact h _ hparent cpu (maskHas_and.mp hhas).1
    · have hhas : MaskHas ((s.copyTask c child).task p).cpusAllowedMask cpu := hhas
      rw [hothers p hne] at hhas
      exact h p hp cpu hhas
  | sysSchedSetaffinity c p userMask =>
    obtain ⟨-, rfl⟩ := hstep
    obtain ⟨s₁, hs₁, hresult⟩ := sysSchedSetaffinity_cases c p userMask s
    have h₁ : s₁.Within M D := by
      rcases hs₁ with rfl | ⟨hcap, rfl⟩
      · exact h
      intro q hq cpu hhas
      rcases (maskHas_widened p q _ cpu s).mp hhas with hold | ⟨rfl, hnew⟩
      · exact h q hq cpu hold
      · exact hkept hcap hq cpu (maskHas_and.mp hnew).1
    show (s.sysSchedSetaffinity c p userMask).Within M D
    rcases hresult with heq | ⟨newMask, -, -, heq⟩
    · rwa [heq]
    · rw [heq]
      exact h₁
  | setCpusAllowed c =>
    obtain ⟨⟨p, newMask, hpc⟩, rfl⟩ := hstep
    show (s.setCpusAllowed c).Within M D
    rcases setCpusAllowed_masks hpc with heq | ⟨-, -, hmasks, -⟩
    · rwa [heq]
    · exact within_of_mask h subset_rfl hmasks
  | _ =>
    exact hrest (fun _ _ => MigOp.noConfusion) (fun _ _ _ => MigOp.noConfusion)
      fun _ => MigOp.noConfusion

/-- Descendants of ordinary tasks are ordinary tasks. -/
theorem ordinary_descend (h : ∀ p ∈ D, s.Ordinary p) (hstep : MigStep s op s') :
    ∀ p ∈ descend s op D, s'.Ordinary p := by
  intro p hp
  rw [ordinary_step hstep]
  cases op with
  | copyTask c child =>
    rcases hp with ⟨rfl, -⟩ | ⟨-, hp⟩
    · exact hstep.1.2.2.ordinary
    · exact h p hp
  | _ => exact h p hp

/-- **Confinement.** Unless somebody with `CAP_SYS_NICE` helps, the ordinary tasks of `D` and all their
descendants may use only CPUs of `M`, whatever they ask for; and one that runs on another CPU is
left to the migration thread of that CPU. -/
theorem confined_of_run (hinv : s.MigInv) (hmask : s.MaskInv) (haffine : s.Affine)
    (hord : ∀ p ∈ D, s.Ordinary p) (hwithin : s.Within M D)
    (hrun : Run (Guarded (fun x op => MigSafe x.1 op ∧ KeptWithin M x op) (Ghost SparingStep descend))
      (s, D) ops (s', D')) :
    (∀ p ∈ D', ∀ cpu, MaskHas (s'.task p).cpusAllowed cpu → M cpu) ∧
      ∀ c, s'.Ordinary (s'.curr c) → s'.curr c ∈ D' → M c ∨
        ∃ req ∈ s'.unserved c, req.task = s'.curr c := by
  let Inv : MigSys × Set TaskId → Prop := fun x =>
    x.1.MigInv ∧ x.1.MaskInv ∧ x.1.Affine ∧ x.1.Within M x.2 ∧ ∀ p ∈ x.2, x.1.Ordinary p
  have hstep : ∀ x op y, Inv x → Guarded (fun x op => MigSafe x.1 op ∧ KeptWithin M x op)
      (Ghost SparingStep descend) x op y → Inv y := by
    rintro ⟨t, E⟩ op ⟨t', E'⟩ ⟨hi, hm, ha, hw, ho⟩ ⟨⟨hsafe, hkept⟩, hstep, hE⟩
    obtain rfl : E' = descend t op E := hE
    exact ⟨migInv_step hi hstep, maskInv_step hm hstep.2, (affine_step_iff hi hm ha hstep).mpr hsafe,
      within_step hw hkept hstep.2, fun p => ordinary_descend ho hstep.2 p⟩
  obtain ⟨-, hm, ha, hw, ho⟩ : Inv (s', D') :=
    hrun.invariant hstep ⟨hinv, hmask, haffine, hwithin, hord⟩
  have hallowed : ∀ p ∈ D', ∀ cpu, MaskHas (s'.task p).cpusAllowed cpu → M cpu :=
    fun p hp cpu hhas => hw p hp cpu (hm.allowed p (ho p hp) cpu hhas)
  exact ⟨hallowed, fun c hord hcurr => (ha.running c hord).imp_left (hallowed _ hcurr c)⟩

/-- Task 2 may use CPU 0 only. -/
def bound : MigSys :=
  (boot 0xff).modify 2 fun t => { t with cpusAllowed := 1, cpusAllowedMask := 1 }

theorem maskHas_one {cpu : ℕ} (h : MaskHas 1 cpu) : cpu % 32 = 0 :=
  Nat.testBit_one_eq_true_iff_self_eq_zero.mp (maskHas_iff.mp h)

/-- The machine of the example satisfies the invariants. -/
theorem invs_bound : bound.MigInv ∧ bound.MaskInv ∧ bound.Affine := by
  have htask : ∀ p, p = 2 ∧ bound.task p = ⟨0, 1, 1, true, 0, 0, false⟩ ∨
      p ≠ 2 ∧ bound.task p = (boot 0xff).task p := by
    intro p
    rcases modify_task_cases 2 p (fun t => { t with cpusAllowed := 1, cpusAllowedMask := 1 })
      (boot 0xff) with ⟨rfl, hat⟩ | hat
    · exact .inl ⟨rfl, hat⟩
    · exact .inr hat
  have hinv : bound.MigInv :=
    (migInv_boot 0xff).modify (.inl rfl) (.inl rfl) (by decide : (1 : UInt32) ≠ 0)
  refine ⟨hinv, ⟨fun p hp cpu hhas => ?_, fun _ _ _ => TaskPc.noConfusion,
    fun _ _ _ _ => TaskPc.noConfusion, fun _ _ _ _ => TaskPc.noConfusion⟩,
    hinv.affine_iff.mpr ⟨fun p hp => .inl ?_, fun _ _ _ => ThreadPc.noConfusion⟩⟩
  · rcases htask p with ⟨-, hat⟩ | ⟨-, hat⟩
    · rw [hat] at hhas ⊢
      exact hhas
    · rw [hat] at hhas ⊢
      exact (maskInv_boot 0xff).allowed p hp cpu hhas
  · rcases htask p with ⟨-, hat⟩ | ⟨-, hat⟩
    · rw [hat]
      decide
    · rw [hat, (boot_masks 0xff hp).1]
      exact maskHas_all _

theorem confined_cons (op : MigOp) {y : MigSys × Set TaskId} (hspares : op.Spares s)
    (henabled : op.Enabled s) (hsafe : MigSafe s op) (hkept : KeptWithin M (s, D) op)
    (hrest : Run (Guarded (fun x op => MigSafe x.1 op ∧ KeptWithin M x op) (Ghost SparingStep descend))
      (op.exec s, descend s op D) ops y) :
    Run (Guarded (fun x op => MigSafe x.1 op ∧ KeptWithin M x op) (Ghost SparingStep descend))
      (s, D) (op :: ops) y :=
  Run.cons ⟨⟨hsafe, hkept⟩, ⟨hspares, henabled, rfl⟩, rfl⟩ hrest

/-- Task 2 forks task 50, which asks for CPU 1 in vain. -/
theorem confined_of_run_child :
    let ops : List MigOp := [.schedule 0 2 false, .copyTask 0 50, .wakeUpForkedProcess 0,
      .schedule 0 50 false, .sysSchedSetaffinity 0 50 2]
    ∃ x : MigSys × Set TaskId, Run (Guarded (fun x op => MigSafe x.1 op ∧
        KeptWithin (fun cpu => cpu % 32 = 0) x op) (Ghost SparingStep descend)) (bound, {2}) ops x ∧
      x.1.curr 0 = 50 ∧ 50 ∈ x.2 ∧ ∀ cpu, MaskHas (x.1.task 50).cpusAllowed cpu → cpu % 32 = 0 := by
  intro ops
  obtain ⟨hinv, hmask, haffine⟩ := invs_bound
  have hord : ∀ {p : ℕ}, p % 3 = 2 → bound.Ordinary p := ordinary_boot 0xff
  have hfresh : MigOp.Fresh (bound.schedule 0 2 false) 50 := by
    refine ⟨hord (p := 50) rfl, rfl, fun c hruns => ?_, rfl, fun _ => TaskPc.noConfusion,
      fun _ _ => TaskPc.noConfusion, fun _ _ => ⟨TaskPc.noConfusion, TaskPc.noConfusion⟩⟩
    by_cases hc : c = 0
    · subst hc
      exact absurd hruns (by decide)
    · have hidle : Function.update bound.curr 0 2 c = 50 := hruns
      rw [Function.update_of_ne hc] at hidle
      have hidle : 3 * c = 50 := hidle
      omega
  have hrun := confined_cons (M := fun cpu => cpu % 32 = 0) (D := {2}) (s := bound)
    (.schedule 0 2 false) trivial
    ⟨maySwitch_of_outside rfl (by decide), rfl, .inr (.inr ⟨hord (p := 2) rfl, rfl⟩),
      fun h => absurd h (by decide)⟩ trivial trivial
    (confined_cons (.copyTask 0 50) trivial ⟨hord (p := 2) rfl, rfl, hfresh⟩
      (by decide : MaskHas 1 0) trivial
      (confined_cons (.wakeUpForkedProcess 0) trivial ⟨50, rfl⟩ (fun child hpc => by
          obtain rfl := TaskPc.forking.inj hpc
          exact (by decide : MaskHas 1 0)) trivial
        (confined_cons (.schedule 0 50 false) trivial
          ⟨maySwitch_of_outside rfl (by decide), rfl, .inr (.inr ⟨hord (p := 50) rfl, rfl⟩),
            fun h => absurd h (by decide)⟩ trivial trivial
          (confined_cons (.sysSchedSetaffinity 0 50 2) (hord (p := 50) rfl)
            ⟨hord (p := 50) rfl, rfl⟩ trivial
            (fun hcap => absurd hcap (by decide)) (Run.nil _)))))
  have htwo : ∀ p ∈ ({2} : Set TaskId), bound.Ordinary p := by
    rintro p rfl
    exact hord (p := 2) rfl
  have hwithin : bound.Within (fun cpu => cpu % 32 = 0) {2} := by
    rintro p rfl cpu hhas
    exact maskHas_one hhas
  have hin : 50 ∈ descend (bound.schedule 0 2 false) (.copyTask 0 50) {2} := .inl ⟨rfl, rfl⟩
  exact ⟨_, hrun, rfl, hin, (confined_of_run hinv hmask haffine htwo hwithin hrun).1 50 hin⟩

end MigSys
end ShortSched
