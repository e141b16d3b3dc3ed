import ShortSched.MigrationSteps

/-!
# Where tasks may run

Every task is on a CPU that it may use, or the migration thread of its CPU has a request for it, as
long as no migration thread has chosen a CPU that the task has since been forbidden, and no task
forks that waits to be migrated or has been migrated while it forks. Only `do_fork`,
`sys_sched_setaffinity` and `set_cpus_allowed` change masks.
-/

namespace ShortSched

open General

namespace MigSys

variable {s s' : MigSys} {c : ℕ} {p t child : TaskId} {req : MigrationReq} {op : MigOp}
  {ops : List MigOp}

/-! ## Affinity -/

/-- A task that is not on a CPU that it may use is left to the migration thread of its CPU. -/
def Placed (s : MigSys) : Prop :=
  ∀ p, s.Ordinary p → MaskHas (s.task p).cpusAllowed (s.task p).cpu ∨
    ∃ req ∈ s.unserved (s.task p).cpu, req.task = p

/-- A migration thread has chosen a CPU that the task may use. -/
def WellChosen (s : MigSys) : Prop :=
  ∀ c req cpuDest, s.thread c = .chosen req cpuDest → MaskHas (s.task req.task).cpusAllowed cpuDest

structure Affine (s : MigSys) : Prop where
  placed : s.Placed
  running : ∀ c, s.Ordinary (s.curr c) → MaskHas (s.task (s.curr c)).cpusAllowed c ∨
    ∃ req ∈ s.unserved c, req.task = s.curr c
  chosen : s.WellChosen

theorem MigInv.affine_iff (h : s.MigInv) : s.Affine ↔ s.Placed ∧ s.WellChosen := by
  refine ⟨fun ha => ⟨ha.placed, ha.chosen⟩, fun ⟨hplaced, hchosen⟩ => ⟨hplaced, fun c hord => ?_,
    hchosen⟩⟩
  have hcurr := hplaced (s.curr c) hord
  rwa [h.curr_cpu] at hcurr

/-- The steps that leave every task where it may be. A migration thread that has read `cpus_allowed`
must not find it changed; a task that forks must be where it may be, at the copy and at the end. -/
def MigSafe (s : MigSys) : MigOp → Prop
  | .setCpusAllowed c => ∀ p newMask, s.pc (s.curr c) = .setting p newMask →
      ∀ c' req cpuDest, s.thread c' = .chosen req cpuDest → req.task = p → MaskHas newMask cpuDest
  | .copyTask c _ => MaskHas (s.task (s.curr c)).cpusAllowed c
  | .wakeUpForkedProcess c => ∀ child, s.pc (s.curr c) = .forking child →
      MaskHas (s.task child).cpusAllowed c
  | _ => True

/-- No task is moved, no mask changes and no request is lost. -/
theorem placed_congr (h : s.Placed) (hord : ∀ p, s'.Ordinary p → s.Ordinary p)
    (htask : ∀ p, (s'.task p).cpu = (s.task p).cpu ∧
      (s'.task p).cpusAllowed = (s.task p).cpusAllowed)
    (hunserved : ∀ c req, req ∈ s.unserved c → req ∈ s'.unserved c) : s'.Placed := by
  intro p hp
  rw [(htask p).1, (htask p).2]
  rcases h p (hord p hp) with hmask | ⟨req, hreq, htask⟩
  · exact .inl hmask
  · exact .inr ⟨req, hunserved _ req hreq, htask⟩

/-- A chosen CPU stays allowed while masks and choices stay. -/
theorem wellChosen_congr (h : s.WellChosen)
    (htask : ∀ p, (s'.task p).cpusAllowed = (s.task p).cpusAllowed)
    (hthread : ∀ c req cpuDest, s'.thread c = .chosen req cpuDest →
      s.thread c = .chosen req cpuDest) : s'.WellChosen := by
  intro c req cpuDest hat
  rw [htask]
  exact h c req cpuDest (hthread c req cpuDest hat)

/-- One task changes, not its mask, and is where it may be if it moves. -/
theorem placed_modify {f : MigTask → MigTask} (h : s.Placed)
    (hallowed : (f (s.task p)).cpusAllowed = (s.task p).cpusAllowed)
    (hcpu : (f (s.task p)).cpu = (s.task p).cpu ∨
      MaskHas (s.task p).cpusAllowed (f (s.task p)).cpu) : (s.modify p f).Placed := by
  intro q hq
  rcases modify_task_cases p q f s with ⟨rfl, hat⟩ | ⟨-, hat⟩
  · rw [hat, hallowed]
    -- it stays, or moves to a CPU of its mask
    rcases hcpu with hcpu | hmask
    · rw [hcpu]
      exact h q hq
    · exact .inl hmask
  · rw [hat]
    exact h q hq

/-- An update that keeps the mask of a task keeps the choices. -/
theorem wellChosen_modify {f : MigTask → MigTask} (h : s.WellChosen)
    (hallowed : (f (s.task p)).cpusAllowed = (s.task p).cpusAllowed) :
    (s.modify p f).WellChosen := by
  refine wellChosen_congr h (fun q => ?_) fun _ _ _ => id
  rcases modify_task_cases p q f s with ⟨rfl, hat⟩ | ⟨-, hat⟩
  · rw [hat, hallowed]
  · rw [hat]

/-- A step inside a round of the loop serves no request. -/
theorem unserved_setThread (pc : ThreadPc) (hpc : pc.unserved = (s.thread c).unserved) (c' : ℕ) :
    (s.setThread c pc).unserved c' = s.unserved c' := by
  show ((s.setThread c pc).thread c').unserved ++ _ = _
  rcases setThread_cases c c' pc s with ⟨rfl, hat⟩ | ⟨-, hat⟩
  · rw [hat, hpc]
    rfl
  · rw [hat]
    rfl

/-- The migration thread goes on, and chooses nothing. -/
theorem wellChosen_setThread {pc : ThreadPc} (h : s.WellChosen)
    (hpc : ∀ req cpuDest, pc ≠ .chosen req cpuDest) : (s.setThread c pc).WellChosen := by
  refine wellChosen_congr h (fun _ => rfl) fun c' req cpuDest hat => ?_
  rcases setThread_cases c c' pc s with ⟨-, hat'⟩ | ⟨-, hat'⟩
  · exact absurd (hat'.symm.trans hat) (hpc req cpuDest)
  · exact hat'.symm.trans hat

/-! ## Masks -/

/-- A task may use only CPUs of its `cpus_allowed_mask`; `sched_setaffinity` gives it no others. The
migration threads but the first have moved themselves out of theirs. -/
structure MaskInv (s : MigSys) : Prop where
  allowed : ∀ p, s.Ordinary p → ∀ cpu, MaskHas (s.task p).cpusAllowed cpu →
    MaskHas (s.task p).cpusAllowedMask cpu
  nonzero : ∀ t p newMask, s.pc t = .setting p newMask → newMask ≠ 0
  online : ∀ t p newMask cpu, s.pc t = .setting p newMask → MaskHas newMask cpu →
    MaskHas s.cpuOnlineMap cpu
  mask : ∀ t p newMask cpu, s.pc t = .setting p newMask → MaskHas newMask cpu →
    MaskHas (s.task p).cpusAllowedMask cpu

/-- `set_cpus_allowed` never gets to `BUG()`. -/
theorem MaskInv.online_and (h : s.MaskInv) {newMask : UInt32} (hpc : s.pc t = .setting p newMask) :
    newMask &&& s.cpuOnlineMap ≠ 0 ∧
      ∀ cpu, MaskHas (newMask &&& s.cpuOnlineMap) cpu ↔ MaskHas newMask cpu := by
  have hboth : ∀ cpu, MaskHas (newMask &&& s.cpuOnlineMap) cpu ↔ MaskHas newMask cpu := fun cpu =>
    maskHas_and.trans (and_iff_left_of_imp (h.online t p newMask cpu hpc))
  refine ⟨fun hzero => ?_, hboth⟩
  have hhas := (hboth _).mpr (maskHas_ffs (h.nonzero t p newMask hpc))
  rw [hzero] at hhas
  exact hhas (UInt32.zero_and)

/-! ## The steps -/

/-- `set_cpus_allowed` keeps tasks where they may be iff no migration thread is about to move the
task to a CPU that it is now forbidden. -/
theorem affine_setCpusAllowed {newMask : UInt32} (hmask : s.MaskInv) (hplaced : s.Placed)
    (hchosen : s.WellChosen) (hpc : s.pc (s.curr c) = .setting p newMask) :
    (s.setCpusAllowed c).Placed ∧ (s.setCpusAllowed c).WellChosen ↔
      ∀ c' req cpuDest, s.thread c' = .chosen req cpuDest → req.task = p →
        MaskHas newMask cpuDest := by
  obtain ⟨hnonzero, hboth⟩ := hmask.online_and hpc
  set mask := newMask &&& s.cpuOnlineMap with hdef
  have hcases := ((setCpusAllowed_cases hpc).resolve_left fun hzero => hnonzero hzero.1).2
  set s' := s.setCpusAllowed c with hs'
  -- the task has the new mask, and is where it may be or a request for it is on the list
  have hself : (s'.task p).cpusAllowed = mask ∧ (MaskHas mask (s'.task p).cpu ∨
      ∃ req ∈ s'.unserved (s'.task p).cpu, req.task = p) := by
    rcases hcases with ⟨hhas, heq⟩ | ⟨-, -, -, heq⟩ | ⟨-, -, heq⟩
    · have htask : s'.task p = { s.task p with cpusAllowed := mask } := by
        rw [heq]
        exact Function.update_self ..
      rw [htask]
      exact ⟨rfl, .inl hhas⟩
    · have htask : s'.task p = { s.task p with cpusAllowed := mask, cpu := ffs mask } := by
        have hset : (s.modify p fun t => { t with cpusAllowed := mask }).task p =
            { s.task p with cpusAllowed := mask } := modify_task_self ..
        rw [heq, goto_task, modify_task_self, hset]
      rw [htask]
      exact ⟨rfl, .inl (maskHas_ffs hnonzero)⟩
    · have htask : s'.task p = { s.task p with cpusAllowed := mask } := by
        rw [heq]
        exact Function.update_self ..
      rw [htask]
      refine ⟨rfl, .inr ⟨⟨s.curr c, p⟩, List.mem_append_right _ ?_, rfl⟩⟩
      rw [heq]
      show _ ∈ Function.update s.migrationQueue (s.task p).cpu _ (s.task p).cpu
      rw [Function.update_self]
      exact List.mem_cons_self
  -- nothing else changes
  have hrest : (∀ q, q ≠ p → s'.task q = s.task q) ∧ s'.thread = s.thread ∧
      (∀ q, s'.Ordinary q ↔ s.Ordinary q) ∧ ∀ c req, req ∈ s.unserved c → req ∈ s'.unserved c := by
    rcases hcases with ⟨-, heq⟩ | ⟨-, -, -, heq⟩ | ⟨-, -, heq⟩
    · rw [heq]
      exact ⟨fun q hq => Function.update_of_ne hq .., rfl, fun _ => Iff.rfl, fun _ _ => id⟩
    · rw [heq]
      refine ⟨fun q hq => ?_, rfl, fun _ => Iff.rfl, fun _ _ => id⟩
      rw [goto_task, modify_task_of_ne hq, modify_task_of_ne hq]
    · rw [heq]
      refine ⟨fun q hq => Function.update_of_ne hq .., rfl, fun _ => Iff.rfl, fun c' req hreq => ?_⟩
      rcases List.mem_append.mp hreq with hreq | hreq
      · exact List.mem_append_left _ hreq
      · refine List.mem_append_right _ ?_
        show _ ∈ Function.update s.migrationQueue (s.task p).cpu _ c'
        by_cases hc : c' = (s.task p).cpu
        · subst hc
          rw [Function.update_self]
          exact List.mem_cons_of_mem _ hreq
        · rwa [Function.update_of_ne hc]
  obtain ⟨htasks, hthreads, hords, hunserved⟩ := hrest
  constructor
  · rintro ⟨-, hchosen'⟩ c' req cpuDest hat rfl
    have hhas := hchosen' c' req cpuDest (by rw [hthreads]; exact hat)
    rw [hself.1] at hhas
    exact (hboth _).mp hhas
  · intro hsafe
    refine ⟨fun q hq => ?_, fun c' req cpuDest hat => ?_⟩
    · by_cases hne : q = p
      · rw [hne, hself.1]
        exact hself.2
      · rw [htasks q hne]
        rcases hplaced q ((hords q).mp hq) with hhas | ⟨req, hreq, htask⟩
        · exact .inl hhas
        · exact .inr ⟨req, hunserved _ req hreq, htask⟩
    · rw [hthreads] at hat
      by_cases hne : req.task = p
      · rw [hne, hself.1]
        exact (hboth _).mpr (hsafe c' req cpuDest hat hne)
      · rw [htasks _ hne]
        exact hchosen c' req cpuDest hat

/-- No request is for a task that is being made. -/
theorem MigInv.unserved_embryo (hinv : s.MigInv) (hunasked : ∀ t rq, ¬(s.pc t).Asks p rq)
    (hreq : req ∈ s.unserved c) : req.task ≠ p := by
  rintro rfl
  exact hunasked _ c ((hinv.req.pend_iff c req).mp (mem_pend_of_unserved hreq)).1

theorem mem_unserved_of_chosen {cpuDest : ℕ} (hat : s.thread c = .chosen req cpuDest) :
    req ∈ s.unserved c := by
  rw [unserved, hat]
  exact List.mem_cons_self

/-- The copy is where its parent is, with the same mask, and no request is for it. -/
theorem affine_copyTask (hinv : s.MigInv) (hplaced : s.Placed) (hchosen : s.WellChosen)
    (hfresh : MigOp.Fresh s child) :
    (s.copyTask c child).Placed ∧ (s.copyTask c child).WellChosen ↔
      MaskHas (s.task (s.curr c)).cpusAllowed c := by
  set s' := s.copyTask c child with hs'
  have hchild : (s'.task child).cpusAllowed = (s.task (s.curr c)).cpusAllowed ∧
      (s'.task child).cpu = c := by
    have htask : s'.task child = _ := Function.update_self ..
    rw [htask]
    exact ⟨rfl, hinv.curr_cpu c⟩
  have htasks : ∀ q, q ≠ child → s'.task q = s.task q := fun q hq => Function.update_of_ne hq ..
  constructor
  · rintro ⟨hplaced', -⟩
    have hhas := hplaced' child hfresh.ordinary
    rw [hchild.1, hchild.2] at hhas
    -- no migration thread will look at a child that has just been copied
    refine hhas.resolve_right ?_
    rintro ⟨req, hreq, htask⟩
    have hreq : req ∈ s.unserved c := hreq
    exact hinv.unserved_embryo hfresh.unasked hreq htask
  · intro hhas
    refine ⟨fun q hq => ?_, fun c' req cpuDest hat => ?_⟩
    · by_cases hne : q = child
      · rw [hne, hchild.1, hchild.2]
        exact .inl hhas
      · rw [htasks q hne]
        exact hplaced q hq
    · have hat : s.thread c' = .chosen req cpuDest := hat
      rw [htasks _ (hinv.unserved_embryo hfresh.unasked (mem_unserved_of_chosen hat))]
      exact hchosen c' req cpuDest hat

/-- **A child** is placed well if and only if its mask allows the CPU of its parent. -/
theorem affine_wakeUpForkedProcess (hinv : s.MigInv) (hplaced : s.Placed) (hchosen : s.WellChosen)
    (hpc : s.pc (s.curr c) = .forking child) :
    (s.wakeUpForkedProcess c).Placed ∧ (s.wakeUpForkedProcess c).WellChosen ↔
      MaskHas (s.task child).cpusAllowed c := by
  have hembryo := hinv.embryo _ child hpc
  simp only [wakeUpForkedProcess, hpc]
  set s₁ := s.modify child (fun t => { t with cpu := c, queued := true }) with hs₁
  have hchild : (s₁.task child).cpusAllowed = (s.task child).cpusAllowed ∧
      (s₁.task child).cpu = c := by
    rw [modify_task_self]
    exact ⟨rfl, rfl⟩
  constructor
  · rintro ⟨hplaced', -⟩
    have hhas : MaskHas (s₁.task child).cpusAllowed (s₁.task child).cpu ∨
        ∃ req ∈ s.unserved (s₁.task child).cpu, req.task = child := hplaced' child hembryo.ordinary
    rw [hchild.1] at hhas
    rw [hchild.2] at hhas
    refine hhas.resolve_right ?_
    rintro ⟨req, hreq, htask⟩
    exact hinv.unserved_embryo hembryo.unasked hreq htask
  · intro hhas
    have hplaced₁ : s₁.Placed := placed_modify hplaced rfl (.inr hhas)
    have hchosen₁ : s₁.WellChosen := wellChosen_modify hchosen rfl
    exact ⟨hplaced₁, hchosen₁⟩

/-- A step of a migration thread. -/
theorem affine_migrationThreadStep (hinv : s.MigInv) (hplaced : s.Placed) (hchosen : s.WellChosen)
    (c : ℕ) : (s.migrationThreadStep c).Placed ∧ (s.migrationThreadStep c).WellChosen := by
  unfold migrationThreadStep
  cases hthread : s.thread c with
  | sleeps => exact ⟨hplaced, hchosen⟩
  | loop =>
    dsimp only
    split
    · have hsame := unserved_setThread (s := s) (c := c) .sleeps (by rw [hthread]; rfl)
      refine ⟨placed_congr hplaced (fun _ => id) (fun _ => ⟨rfl, rfl⟩) fun c' req hreq => ?_,
        wellChosen_setThread hchosen fun _ _ => ThreadPc.noConfusion⟩
      rwa [hsame]
    · next req rest hqueue =>
      refine ⟨placed_congr hplaced (fun _ => id) (fun _ => ⟨rfl, rfl⟩) fun c' req' hreq => ?_, ?_⟩
      · show req' ∈ (Function.update s.thread c _ c').unserved ++
          Function.update s.migrationQueue c rest c'
        by_cases hc : c' = c
        · subst hc
          rw [Function.update_self, Function.update_self]
          rw [unserved, hthread, hqueue] at hreq
          exact hreq
        · rw [Function.update_of_ne hc, Function.update_of_ne hc]
          exact hreq
      · have hqueued : { s with
            migrationQueue := Function.update s.migrationQueue c rest }.WellChosen := hchosen
        exact wellChosen_setThread hqueued fun _ _ => ThreadPc.noConfusion
  | took req =>
    have hsame := unserved_setThread (s := s) (c := c)
      (.chosen req (ffs (s.task req.task).cpusAllowed)) (by rw [hthread]; rfl)
    refine ⟨placed_congr hplaced (fun _ => id) (fun _ => ⟨rfl, rfl⟩) fun c' req' hreq => ?_,
      fun c' req' cpuDest hat => ?_⟩
    · rwa [hsame]
    · rcases setThread_cases c c' (.chosen req (ffs (s.task req.task).cpusAllowed)) s with
        ⟨-, hat'⟩ | ⟨-, hat'⟩
      · -- `__ffs` of the mask as it is now
        obtain ⟨rfl, rfl⟩ := ThreadPc.chosen.inj (hat'.symm.trans hat)
        exact maskHas_ffs (hinv.allowed req.task)
      · exact hchosen c' req' cpuDest (hat'.symm.trans hat)
  | chosen req cpuDest =>
    dsimp only
    set s₁ := if (s.task req.task).cpu = c then
        s.modify req.task (fun t => { t with cpu := cpuDest }) else s with hs₁
    have hfields : s₁.thread = s.thread ∧ s₁.migrationQueue = s.migrationQueue ∧
        (∀ q, s₁.Ordinary q ↔ s.Ordinary q) ∧ (∀ q, q ≠ req.task → s₁.task q = s.task q) ∧
          ((s.task req.task).cpu ≠ c ∧ s₁.task = s.task ∨
            (s₁.task req.task).cpusAllowed = (s.task req.task).cpusAllowed ∧
              (s₁.task req.task).cpu = cpuDest) ∧ s₁.WellChosen := by
      rw [hs₁]
      split
      · refine ⟨rfl, rfl, fun _ => Iff.rfl, fun q hq => modify_task_of_ne hq _ s, .inr ?_,
          wellChosen_modify hchosen rfl⟩
        rw [modify_task_self]
        exact ⟨rfl, rfl⟩
      · next hcpu =>
        exact ⟨rfl, rfl, fun _ => Iff.rfl, fun _ _ => rfl, .inl ⟨hcpu, rfl⟩, hchosen⟩
    obtain ⟨hthreads, hqueues, hords, htasks, hself, hchosen₁⟩ := hfields
    -- the other requests are still to be looked at
    have hothers : ∀ c' req', req' ∈ s.unserved c' → c' ≠ c ∨ req' ≠ req →
        req' ∈ (s₁.setThread c (.moved req)).unserved c' := by
      intro c' req' hreq hne
      show req' ∈ (Function.update s₁.thread c _ c').unserved ++ s₁.migrationQueue c'
      rw [hthreads, hqueues]
      by_cases hc : c' = c
      · subst hc
        rw [unserved, hthread] at hreq
        rw [Function.update_self]
        exact (List.mem_cons.mp hreq).resolve_left (hne.resolve_left fun hc => hc rfl)
      · rw [Function.update_of_ne hc]
        exact hreq
    refine ⟨fun q hq => ?_, wellChosen_setThread hchosen₁ fun _ _ => ThreadPc.noConfusion⟩
    have hold := hplaced q ((hords q).mp hq)
    show MaskHas (s₁.task q).cpusAllowed (s₁.task q).cpu ∨
      ∃ req' ∈ (s₁.setThread c (.moved req)).unserved (s₁.task q).cpu, req'.task = q
    by_cases hmine : q = req.task
    · rcases hself with ⟨hcpu, hsame⟩ | ⟨hallowed, hdest⟩
      · rw [hsame]
        refine hold.imp_right fun ⟨req', hreq, htask⟩ =>
          ⟨req', hothers _ req' hreq (.inl ?_), htask⟩
        rwa [hmine]
      · left
        rw [hmine, hallowed, hdest]
        exact hchosen c req cpuDest hthread
    · rw [htasks q hmine]
      refine hold.imp_right fun ⟨req', hreq, htask⟩ => ⟨req', hothers _ req' hreq (.inr ?_), htask⟩
      rintro rfl
      exact hmine htask.symm
  | moved req =>
    have hsame := unserved_setThread (s := s.up req.caller) (c := c) .loop (by
      show _ = (s.thread c).unserved
      rw [hthread]
      rfl)
    have hup : (s.up req.caller).Placed := placed_modify hplaced rfl (.inl rfl)
    refine ⟨placed_congr hup (fun _ => id) (fun _ => ⟨rfl, rfl⟩) fun c' req' hreq => ?_, ?_⟩
    · rwa [hsame]
    · have hup : (s.up req.caller).WellChosen := wellChosen_modify hchosen rfl
      exact wellChosen_setThread hup fun _ _ => ThreadPc.noConfusion

/-- **The step lemma.** -/
theorem affine_step_iff (hinv : s.MigInv) (hmask : s.MaskInv) (h : s.Affine)
    (hstep : SparingStep s op s') : s'.Affine ↔ MigSafe s op := by
  rw [(migInv_step hinv hstep).affine_iff]
  obtain ⟨-, henabled, rfl⟩ := hstep
  obtain ⟨hplaced, -, hchosen⟩ := h
  cases op with
  | schedule c next sleep =>
    have hplaced' : (s.schedule c next sleep).Placed :=
      placed_modify (p := s.curr c) (f := fun t => { t with queued := t.queued && !sleep }) hplaced
        rfl (.inl rfl)
    have hchosen' : (s.schedule c next sleep).WellChosen :=
      wellChosen_modify (p := s.curr c) (f := fun t => { t with queued := t.queued && !sleep })
        hchosen rfl
    exact iff_of_true ⟨hplaced', hchosen'⟩ trivial
  | tryToWakeUp c p sync =>
    refine iff_of_true ?_ trivial
    show (s.tryToWakeUp c p sync).Placed ∧ (s.tryToWakeUp c p sync).WellChosen
    rcases tryToWakeUp_cases c p sync s with heq | heq | ⟨-, -, hhas, heq⟩
    · rw [heq]
      exact ⟨hplaced, hchosen⟩
    · rw [heq]
      exact ⟨placed_modify hplaced rfl (.inl rfl), wellChosen_modify hchosen rfl⟩
    · rw [heq]
      exact ⟨placed_modify hplaced rfl (.inr hhas), wellChosen_modify hchosen rfl⟩
  | pull c p =>
    obtain ⟨-, -, -, -, hhas⟩ := henabled
    refine iff_of_true ?_ trivial
    show (s.modify p fun t => { t with cpu := c }).Placed ∧
      (s.modify p fun t => { t with cpu := c }).WellChosen
    exact ⟨placed_modify hplaced rfl (.inr hhas), wellChosen_modify hchosen rfl⟩
  | copyTask c child => exact affine_copyTask hinv hplaced hchosen henabled.2.2
  | wakeUpForkedProcess c =>
    obtain ⟨child, hpc⟩ := henabled
    refine (affine_wakeUpForkedProcess hinv hplaced hchosen hpc).trans ⟨fun hhas q hq => ?_,
      fun hsafe => hsafe child hpc⟩
    obtain rfl := TaskPc.forking.inj (hpc.symm.trans hq)
    exact hhas
  | badFork c => exact iff_of_true ⟨hplaced, hchosen⟩ trivial
  | sysSchedSetaffinity c p userMask =>
    refine iff_of_true ?_ trivial
    obtain ⟨s₁, hs₁, hresult⟩ := sysSchedSetaffinity_cases c p userMask s
    have h₁ : s₁.Placed ∧ s₁.WellChosen := by
      rcases hs₁ with rfl | ⟨-, rfl⟩
      · exact ⟨hplaced, hchosen⟩
      · exact ⟨placed_modify hplaced rfl (.inl rfl), wellChosen_modify hchosen rfl⟩
    show (s.sysSchedSetaffinity c p userMask).Placed ∧
      (s.sysSchedSetaffinity c p userMask).WellChosen
    rcases hresult with heq | ⟨newMask, -, -, heq⟩
    · rwa [heq]
    · rw [heq]
      exact h₁
  | setCpusAllowed c =>
    obtain ⟨p, newMask, hpc⟩ := henabled
    refine (affine_setCpusAllowed hmask hplaced hchosen hpc).trans ⟨fun hsafe q m hq => ?_,
      fun hsafe => hsafe p newMask hpc⟩
    obtain ⟨rfl, rfl⟩ := TaskPc.setting.inj (hpc.symm.trans hq)
    exact hsafe
  | wakeThread c =>
    refine iff_of_true ?_ trivial
    obtain ⟨p, rq, hpc⟩ := henabled
    simp only [MigOp.exec, wakeThread, hpc]
    split
    · next hsleeps =>
      have hsame := unserved_setThread (s := s) (c := rq) .loop (by rw [hsleeps]; rfl)
      refine ⟨placed_congr hplaced (fun _ => id) (fun _ => ⟨rfl, rfl⟩) fun c' req hreq => ?_, ?_⟩
      · show req ∈ (s.setThread rq .loop).unserved c'
        rwa [hsame]
      · have hloop : (s.setThread rq .loop).WellChosen :=
          wellChosen_setThread hchosen fun _ _ => ThreadPc.noConfusion
        exact hloop
    · exact ⟨hplaced, hchosen⟩
  | down c => exact iff_of_true ⟨hplaced, hchosen⟩ trivial
  | migrationThread c =>
    exact iff_of_true (affine_migrationThreadStep hinv hplaced hchosen c) trivial

/-! ## Masks over the steps -/

/-- No mask changes, and no new one is about to be set. -/
structure SameMasks (s s' : MigSys) : Prop where
  allowed : ∀ p, (s'.task p).cpusAllowed = (s.task p).cpusAllowed
  mask : ∀ p, (s'.task p).cpusAllowedMask = (s.task p).cpusAllowedMask
  setting : ∀ t p newMask, s'.pc t = .setting p newMask → s.pc t = .setting p newMask
  online : s'.cpuOnlineMap = s.cpuOnlineMap

namespace SameMasks

theorem refl (s : MigSys) : SameMasks s s :=
  ⟨fun _ => rfl, fun _ => rfl, fun _ _ _ => id, rfl⟩

theorem trans {s'' : MigSys} (h : SameMasks s s') (h' : SameMasks s' s'') : SameMasks s s'' :=
  ⟨fun p => (h'.allowed p).trans (h.allowed p), fun p => (h'.mask p).trans (h.mask p),
    fun t p newMask hset => h.setting t p newMask (h'.setting t p newMask hset),
    h'.online.trans h.online⟩

/-- An update that writes neither mask. -/
theorem modify {f : MigTask → MigTask} (hallowed : (f (s.task p)).cpusAllowed =
    (s.task p).cpusAllowed) (hmask : (f (s.task p)).cpusAllowedMask = (s.task p).cpusAllowedMask) :
    SameMasks s (s.modify p f) := by
  refine ⟨fun q => ?_, fun q => ?_, fun _ _ _ => id, rfl⟩
  · rcases modify_task_cases p q f s with ⟨rfl, hat⟩ | ⟨-, hat⟩
    · rw [hat, hallowed]
    · rw [hat]
  · rcases modify_task_cases p q f s with ⟨rfl, hat⟩ | ⟨-, hat⟩
    · rw [hat, hmask]
    · rw [hat]

theorem goto {pc : TaskPc} (hpc : ∀ p newMask, pc ≠ .setting p newMask) :
    SameMasks s (s.goto t pc) := by
  refine ⟨fun _ => rfl, fun _ => rfl, fun t' p newMask hset => ?_, rfl⟩
  rcases goto_pc_cases t t' pc s with ⟨-, hat⟩ | ⟨-, hat⟩
  · exact absurd (hat.symm.trans hset) (hpc p newMask)
  · exact hat.symm.trans hset

/-- A wake-up writes no mask. -/
theorem tryToWakeUp (c : ℕ) (p : TaskId) (sync : Bool) : SameMasks s (s.tryToWakeUp c p sync) := by
  rcases tryToWakeUp_cases c p sync s with heq | heq | ⟨-, -, -, heq⟩
  · rw [heq]
    exact refl s
  · rw [heq]
    exact modify rfl rfl
  · rw [heq]
    exact modify rfl rfl

/-- Nor does the wake-up of a child. -/
theorem wakeUpForkedProcess (c : ℕ) : SameMasks s (s.wakeUpForkedProcess c) := by
  unfold MigSys.wakeUpForkedProcess
  split
  · next child _ =>
    have hchild : SameMasks s (s.modify child fun t => { t with cpu := c, queued := true }) :=
      modify rfl rfl
    exact hchild.trans (goto fun _ _ => TaskPc.noConfusion)
  · exact refl s

/-- Nor does the wake-up of a migration thread. -/
theorem wakeThread (c : ℕ) : SameMasks s (s.wakeThread c) := by
  unfold MigSys.wakeThread
  dsimp only
  split
  · next p rq _ =>
    split
    · have hthread : SameMasks s (s.setThread rq .loop) :=
        ⟨fun _ => rfl, fun _ => rfl, fun _ _ _ => id, rfl⟩
      exact hthread.trans (goto fun _ _ => TaskPc.noConfusion)
    · exact goto fun _ _ => TaskPc.noConfusion
  · exact refl s

/-- Nor does a migration thread. -/
theorem migrationThreadStep (c : ℕ) : SameMasks s (s.migrationThreadStep c) := by
  unfold MigSys.migrationThreadStep
  split
  · split
    · exact ⟨fun _ => rfl, fun _ => rfl, fun _ _ _ => id, rfl⟩
    · exact ⟨fun _ => rfl, fun _ => rfl, fun _ _ _ => id, rfl⟩
  · exact ⟨fun _ => rfl, fun _ => rfl, fun _ _ _ => id, rfl⟩
  · next req cpuDest _ =>
    dsimp only
    split
    · have hmove : SameMasks s (s.modify req.task fun t => { t with cpu := cpuDest }) :=
        modify rfl rfl
      exact ⟨hmove.allowed, hmove.mask, hmove.setting, rfl⟩
    · exact ⟨fun _ => rfl, fun _ => rfl, fun _ _ _ => id, rfl⟩
  · next req _ =>
    have hup : SameMasks s (s.modify req.caller fun t => { t with queued := true }) :=
      modify rfl rfl
    exact ⟨hup.allowed, hup.mask, hup.setting, rfl⟩
  · exact refl s

end SameMasks

/-- The steps that change masks are those of `do_fork`, `sys_sched_setaffinity` and
`set_cpus_allowed`. -/
theorem sameMasks_step (hstep : MigStep s op s') (hfork : ∀ c child, op ≠ .copyTask c child)
    (hset : ∀ c p userMask, op ≠ .sysSchedSetaffinity c p userMask)
    (hcall : ∀ c, op ≠ .setCpusAllowed c) : SameMasks s s' := by
  obtain ⟨henabled, rfl⟩ := hstep
  cases op with
  | schedule c next sleep =>
    have hprev : SameMasks s (s.modify (s.curr c) fun t =>
        { t with queued := t.queued && !sleep }) := .modify rfl rfl
    exact ⟨hprev.allowed, hprev.mask, hprev.setting, rfl⟩
  | tryToWakeUp c p sync => exact .tryToWakeUp c p sync
  | pull c p =>
    have hpull : SameMasks s (s.modify p fun t => { t with cpu := c }) := .modify rfl rfl
    exact hpull
  | copyTask c child => exact absurd rfl (hfork c child)
  | wakeUpForkedProcess c => exact .wakeUpForkedProcess c
  | badFork c => exact .goto fun _ _ => TaskPc.noConfusion
  | sysSchedSetaffinity c p userMask => exact absurd rfl (hset c p userMask)
  | setCpusAllowed c => exact absurd rfl (hcall c)
  | wakeThread c => exact .wakeThread c
  | down c =>
    have hcount : SameMasks s
        { s with sem := Function.update s.sem (s.curr c) (s.sem (s.curr c) - 1) } :=
      ⟨fun _ => rfl, fun _ => rfl, fun _ _ _ => id, rfl⟩
    exact hcount.trans (.goto fun _ _ => TaskPc.noConfusion)
  | migrationThread c => exact .migrationThreadStep c

/-- Steps that write no mask keep the masks of ordinary tasks. -/
theorem MaskInv.congr (h : s.MaskInv) (hsame : SameMasks s s')
    (hord : ∀ p, s'.Ordinary p → s.Ordinary p) : s'.MaskInv := by
  refine ⟨fun p hp cpu hhas => ?_, fun t p newMask hset => ?_, fun t p newMask cpu hset hhas => ?_,
    fun t p newMask cpu hset hhas => ?_⟩
  · rw [hsame.allowed] at hhas
    rw [hsame.mask]
    exact h.allowed p (hord p hp) cpu hhas
  · exact h.nonzero t p newMask (hsame.setting t p newMask hset)
  · rw [hsame.online]
    exact h.online t p newMask cpu (hsame.setting t p newMask hset) hhas
  · rw [hsame.mask]
    exact h.mask t p newMask cpu (hsame.setting t p newMask hset) hhas

end MigSys
end ShortSched
