import ShortSched.Vfork

/-!
# Runs of the machine with wait queues

Every step keeps the invariants of the waiters and of `vfork`, so they hold in every state that a
run reaches.
-/

namespace ShortSched

open General Sys

/-- A safe step: the flag of a fork does no harm (`ForkSafe`), `setscheduler` is called by a task that
runs (`AwakeSafe`), and `done` does not wrap around. -/
def WaitSafe (w : WaitSys) : WaitOp → Prop
  | .sched op => AwakeSafe w.sys op
  | .complete x => (∀ wait ∈ (w.completion (.other x)).wait.taskList,
      ForkSafe w.sys (.tryToWakeUp wait.task false)) ∧
        (w.completion (.other x)).done.toNat + 1 < UInt32.size
  | .wakeUp q _ _ | .wakeUpSync q _ _ => ∀ wait ∈ (w.queue q).taskList,
      ForkSafe w.sys (.tryToWakeUp wait.task false)
  | .enter _ | .proceed | .mmRelease | .setCondition _ _ => True

instance (w : WaitSys) : DecidablePred (WaitSafe w)
  | .sched _ => inferInstanceAs (Decidable (AwakeSafe _ _))
  | .complete _ => @instDecidableAnd _ _
      (List.decidableBAll (fun wait : WaitEntry => ForkSafe w.sys (.tryToWakeUp wait.task false)) _)
      (inferInstanceAs (Decidable (_ < _)))
  | .wakeUp _ _ _ | .wakeUpSync _ _ _ =>
    List.decidableBAll (fun wait : WaitEntry => ForkSafe w.sys (.tryToWakeUp wait.task false)) _
  | .enter _ | .proceed | .mmRelease | .setCondition _ _ => instDecidableTrue

/-- The steps of a run that meets the conditions. -/
abbrev SafeWaitStep [WaitHeader] [Param] : WaitSys → WaitOp → WaitSys → Prop :=
  Guarded WaitSafe WaitStep

namespace WaitSys

variable {w w' : WaitSys} {op : WaitOp} {c p t : TaskId} {q : ℕ}

/-! ## Steps that are not in the modules before -/

theorem forkSafe_of_outside (h : WaitInv w) (hprocess : Op.InProcess w.sys) (p : TaskId) :
    ForkSafe w.sys (.tryToWakeUp p false) :=
  fun hc => hc.1 (h.fork.noFlags hprocess.1 _)

theorem WaitInv.setCondition (h : WaitInv w) (condition : ℕ → Bool) :
    WaitInv { w with condition := condition } :=
  ⟨h.fork, h.sleep, h.listed, h.parked, h.noFork, h.waiting, h.owner, h.onCompletion, h.onQueue,
    h.completionNodup, h.queueNodup, h.served⟩

theorem VforkInv.setCondition (h : VforkInv w) (condition : ℕ → Bool) :
    VforkInv { w with condition := condition } :=
  ⟨h.parent, h.unique, h.alive, h.window, h.released⟩

/-- No child points to another completion. -/
theorem VforkInv.setOther (h : VforkInv w) (x : ℕ) (completion : Completion) :
    VforkInv (w.setCompletion (.other x) completion) := by
  have hsame : ∀ p, (w.setCompletion (.other x) completion).completion (.vfork p) =
      w.completion (.vfork p) := fun p => completion_of_ne CompletionPtr.noConfusion _ _
  refine {
    parent := fun c p hc => ?parent
    unique := h.unique
    alive := h.alive
    window := h.window
    released := fun p hp => ?released }
  case parent =>
    rw [hsame]
    exact h.parent c p hc
  case released =>
    rw [hsame]
    exact h.released p hp

/-- The child lets its parent go. -/
theorem VforkInv.release (h : VforkInv w) (hc : w.vforkDone c = some p)
    (hforking : w.sys.forking = none) {completion : Completion} (hdone : completion.done = 1) :
    VforkInv { w.setCompletion (.vfork p) completion with
      vforkDone := Function.update w.vforkDone c none } := by
  have hvforks := not_vforks hforking
  have hold : ∀ {c' p'}, Function.update w.vforkDone c none c' = some p' →
      c' ≠ c ∧ w.vforkDone c' = some p' := by
    intro c' p' hc'
    have hne : c' ≠ c := by
      rintro rfl
      rw [Function.update_self] at hc'
      cases hc'
    rw [Function.update_of_ne hne] at hc'
    exact ⟨hne, hc'⟩
  refine {
    parent := fun c' p' hc' => ?parent
    unique := fun c₁ c₂ p' hc₁ hc₂ => ?unique
    alive := fun c' hc' => ?alive
    window := fun c' hc' => absurd hc' (hvforks c')
    released := fun p' hp' => ?released }
  case parent =>
    obtain ⟨hne, hbefore⟩ := hold hc'
    -- another child has another parent
    have hother : p' ≠ p := by
      rintro rfl
      exact hne (h.unique _ _ _ hbefore hc)
    dsimp only
    rw [completion_of_ne fun hc => hother (CompletionPtr.vfork.inj hc)]
    exact h.parent c' p' hbefore
  case unique =>
    exact h.unique c₁ c₂ p' (hold hc₁).2 (hold hc₂).2
  case alive =>
    obtain ⟨p', hp'⟩ := Option.ne_none_iff_exists'.mp hc'
    refine h.alive c' ?_
    rw [(hold hp').2]
    exact Option.some_ne_none _
  case released =>
    dsimp only
    by_cases hp : p' = p
    · subst hp
      right
      rw [completion_self]
      exact hdone
    · rw [completion_of_ne fun hc => hp (CompletionPtr.vfork.inj hc)]
      -- the other parents still have their child
      refine (h.released p' hp').imp_left fun ⟨c', hc'⟩ => ⟨c', ?_⟩
      rw [Function.update_of_ne]
      · exact hc'
      · rintro rfl
        exact hp (Option.some.inj (hc'.symm.trans hc))

variable [WaitHeader] [Param]

omit [WaitHeader] in
/-- `mm_release` completes the completion of a parent that waits, once. -/
theorem mmRelease_cases (w : WaitSys) : w.mmRelease = w ∨ ∃ p, w.vforkDone w.curr = some p ∧
    w.mmRelease =
      { w with vforkDone := Function.update w.vforkDone w.curr none }.complete (.vfork p) := by
  unfold mmRelease
  split
  · exact .inl rfl
  · next p hp => exact .inr ⟨p, hp, rfl⟩

omit [WaitHeader] in
/-- **`mm_release`** -/
theorem WaitInv.mmRelease (h : WaitInv w) (hv : VforkInv w) (hprocess : Op.InProcess w.sys) :
    WaitInv w.mmRelease := by
  rcases mmRelease_cases w with hsame | ⟨p, hp, hcomplete⟩
  · rwa [hsame]
  · rw [hcomplete]
    refine (h.setVforkDone _).complete (fun wait _ => forkSafe_of_outside h hprocess _) ?_
    dsimp only
    rw [(hv.parent _ p hp).1]
    decide

omit [WaitHeader] in
/-- **`mm_release`** lets the parent go, and nobody points to its completion any more. -/
theorem VforkInv.mmRelease (h : VforkInv w) (hinv : WaitInv w) (hprocess : Op.InProcess w.sys) :
    VforkInv w.mmRelease := by
  rcases mmRelease_cases w with hsame | ⟨p, hp, hcomplete⟩
  · rwa [hsame]
  · rw [hcomplete]
    have hwakeable : Wakeable (w.completion (.vfork p)).wait.taskList false w.sys :=
      hinv.wakeable (fun _ hwait => hinv.completion_inside hwait) fun wait _ =>
        forkSafe_of_outside hinv hprocess _
    have hwoken := h.wakes anySleep hwakeable (hinv.completion_tasks _) 1
    have hlists := (wakeUpCommon_frame anySleep false (w.completion (.vfork p)).wait.taskList 1
      w.sys).1
    refine hwoken.release hp (hlists.forking.trans hprocess.1) ?_
    dsimp only
    rw [(h.parent _ p hp).1]
    rfl

omit [WaitHeader] in
/-- **`complete`** of a completion that is no parent's. -/
theorem VforkInv.complete {x : ℕ} (h : VforkInv w) (hinv : WaitInv w)
    (hsafe : ∀ wait ∈ (w.completion (.other x)).wait.taskList,
      ForkSafe w.sys (.tryToWakeUp wait.task false)) : VforkInv (w.complete (.other x)) := by
  have hwakeable : Wakeable (w.completion (.other x)).wait.taskList false w.sys :=
    hinv.wakeable (fun _ hwait => hinv.completion_inside hwait) hsafe
  exact (h.wakes anySleep hwakeable (hinv.completion_tasks _) 1).setOther x _

omit [WaitHeader] in
/-- A vfork parent leaves `do_fork`. -/
theorem vforkReturn {s : Sys} (h : WaitInv w) (hv : VforkInv w)
    (hstep : Step w.sys .vforkReturn s) (hhere : w.here = .vforkOut) :
    WaitInv ({ w with sys := s }.goto .outside) ∧ VforkInv ({ w with sys := s }.goto .outside) := by
  have hsafe : AwakeSafe w.sys .vforkReturn := ⟨trivial, fun hc => absurd hc Bool.false_ne_true⟩
  have hinv := h.sched hstep hhere hsafe
  have hvfork := hv.sched h hstep hhere hsafe (fun _ _ => Op.noConfusion) Op.noConfusion
  have hcurr : s.rq.curr = w.curr := by
    rcases (step_ptrs hstep).2 with hsame | hc | hc
    · exact hsame.curr
    · cases hc
    · cases hc
  have hhere' : ({ w with sys := s } : WaitSys).here = .vforkOut := by
    show w.place s.rq.curr = _
    rw [hcurr]
    exact hhere
  have hprocess : Op.InProcess s := by
    refine hinv.inProcess ?_
    rw [hhere']
    exact Place.noConfusion
  constructor
  · refine hinv.goto hprocess (fun hc => hc.elim) (fun _ _ hc => nomatch hc) (fun x => ?_) fun q => ?_
    · rw [hhere']
      exact Iff.rfl
    · rw [hhere']
      exact Iff.rfl
  · refine hvfork.piece hinv ?_ hprocess.1
    refine .of_away ⟨rfl, rfl⟩ (fun _ hc => hc) rfl rfl rfl (fun x phase => ?_)
      fun _ _ => Place.noConfusion
    rw [hhere']
    exact Place.noConfusion

/-! ## Every step -/

/-- A step of the scheduler, or the begin or the end of a fork, or of a `vfork`. -/
inductive SchedStep (w : WaitSys) : Op → WaitSys → Prop
  | doFork (cloneFlags : UInt32) (env : ForkEnv) :
      SchedStep w (.doFork cloneFlags env) (w.doFork cloneFlags env)
  | doForkWake (w' : WaitSys) (hcall : w.doForkWake = some w') : SchedStep w .doForkWake w'
  | vforkReturn : SchedStep w .vforkReturn ({ w with sys := w.sys.vforkReturn }.goto .outside)
  | other (op : Op) (s : Sys) (hexec : op.exec w.sys = some s)
      (hfork : ∀ cloneFlags env, op ≠ .doFork cloneFlags env) (hwake : op ≠ .doForkWake) :
      SchedStep w op { w with sys := s }

/-- Steps of the scheduler but the three that belong to `vfork` do not see the waiters. -/
theorem exec_sched {op : Op} (hfork : ∀ cloneFlags env, op ≠ .doFork cloneFlags env)
    (hwake : op ≠ .doForkWake) (hreturn : op ≠ .vforkReturn) (w : WaitSys) :
    (WaitOp.sched op).exec w = (op.exec w.sys).map fun s => { w with sys := s } := by
  cases op with
  | doFork cloneFlags env => exact absurd rfl (hfork cloneFlags env)
  | doForkWake => exact absurd rfl hwake
  | vforkReturn => exact absurd rfl hreturn
  | _ => rfl

/-- Every step of the scheduler is one of these. -/
theorem schedStep_of_exec {op : Op} (h : (WaitOp.sched op).exec w = some w') :
    SchedStep w op w' := by
  by_cases hreturn : op = .vforkReturn
  · subst hreturn
    obtain rfl := Option.some.inj h
    exact .vforkReturn
  by_cases hwake : op = .doForkWake
  · subst hwake
    exact .doForkWake w' h
  by_cases hfork : ∃ cloneFlags env, op = .doFork cloneFlags env
  · obtain ⟨cloneFlags, env, rfl⟩ := hfork
    obtain rfl := Option.some.inj h
    exact .doFork cloneFlags env
  · push Not at hfork
    rw [exec_sched hfork hwake hreturn] at h
    obtain ⟨s, hs, rfl⟩ := Option.map_eq_some_iff.mp h
    exact .other op s hs hfork hwake

/-- **Every step** keeps the invariants of the waiters. -/
theorem invs_step (h : WaitInv w ∧ VforkInv w) (hstep : SafeWaitStep w op w') :
    WaitInv w' ∧ VforkInv w' := by
  obtain ⟨hinv, hvfork⟩ := h
  obtain ⟨hsafe, hen, hexec⟩ := hstep
  cases op with
  | sched op =>
    obtain ⟨hen, hallows⟩ := hen
    cases schedStep_of_exec hexec with
    | doFork => exact ⟨hinv.doFork ⟨hen, hallows⟩, hvfork.doFork ⟨hen, hallows⟩⟩
    | doForkWake _ hcall =>
      exact ⟨hinv.doForkWake ⟨hen, hallows⟩ hsafe hcall, hvfork.doForkWake ⟨hen, hallows⟩ hcall⟩
    | vforkReturn => exact vforkReturn hinv hvfork ⟨hen, rfl⟩ hallows
    | other _ s hs hfork hwake =>
      exact ⟨hinv.sched ⟨hen, hs⟩ hallows hsafe,
        hvfork.sched hinv ⟨hen, hs⟩ hallows hsafe hfork hwake⟩
  | enter call =>
    obtain rfl := Option.some.inj hexec
    exact ⟨hinv.enter hen, hvfork.piece hinv (piece_enter hen.2.1) hen.1.1⟩
  | proceed =>
    exact ⟨hinv.proceed hexec,
      hvfork.piece hinv (piece_proceed hexec) (hinv.inProcess hen.1).1⟩
  | complete x =>
    obtain rfl := Option.some.inj hexec
    exact ⟨hinv.complete hsafe.1 hsafe.2, hvfork.complete hinv hsafe.1⟩
  | mmRelease =>
    obtain rfl := Option.some.inj hexec
    exact ⟨hinv.mmRelease hvfork hen.1, hvfork.mmRelease hinv hen.1⟩
  | wakeUp q mode nrExclusive =>
    obtain rfl := Option.some.inj hexec
    have hwakeable : Wakeable (w.queue q).taskList false w.sys :=
      hinv.wakeable (fun _ hwait => hinv.queue_inside hwait) hsafe
    exact ⟨hinv.wakes hwakeable (hinv.queue_tasks q) mode nrExclusive,
      hvfork.wakes mode hwakeable (hinv.queue_tasks q) nrExclusive⟩
  | wakeUpSync q mode nrExclusive =>
    obtain rfl := Option.some.inj hexec
    have hwakeable : ∀ sync, Wakeable (w.queue q).taskList sync w.sys := fun sync =>
      hinv.wakeable (fun _ hwait => hinv.queue_inside hwait) hsafe
    unfold wakeUpSync
    split
    · exact ⟨hinv.wakes (hwakeable true) (hinv.queue_tasks q) mode nrExclusive,
        hvfork.wakes mode (hwakeable true) (hinv.queue_tasks q) nrExclusive⟩
    · exact ⟨hinv.wakes (hwakeable false) (hinv.queue_tasks q) mode nrExclusive,
        hvfork.wakes mode (hwakeable false) (hinv.queue_tasks q) nrExclusive⟩
  | setCondition q holds =>
    obtain rfl := Option.some.inj hexec
    exact ⟨hinv.setCondition _, hvfork.setCondition _⟩

/-- **In every run** from a machine in which nobody waits. -/
theorem invs_run {s : Sys} {ops : List WaitOp} (hinv : s.RqInv) (hflags : s.NoFlags)
    (hforking : s.forking = none) (hsleep : s.SleepInv) (hrun : Run SafeWaitStep (start s) ops w) :
    WaitInv w ∧ VforkInv w := by
  have hstart : WaitInv (start s) ∧ VforkInv (start s) :=
    ⟨waitInv_start (forkInv_of_noFlags hinv hflags hforking) hsleep hforking,
      vforkInv_start hforking⟩
  exact Run.invariant (P := fun w => WaitInv w ∧ VforkInv w)
    (fun _ _ _ h hstep => invs_step h hstep) hrun hstart

/-! ## Runs that are computed -/

/-- A step that meets `G`. -/
def stepIf (G : WaitSys → WaitOp → Prop) [∀ w op, Decidable (G w op)] (w : WaitSys) (op : WaitOp) :
    Option WaitSys :=
  if G w op ∧ op.Enabled w then op.exec w else none

/-- Runs can be computed. -/
theorem run_iff_stepIf {G : WaitSys → WaitOp → Prop} [∀ w op, Decidable (G w op)]
    {ops : List WaitOp} :
    Run (Guarded G WaitStep) w ops w' ↔ runWith (stepIf G) ops w = some w' := by
  apply run_iff_runWith
  intro w op w'
  unfold stepIf
  by_cases hen : G w op ∧ op.Enabled w
  · rw [if_pos hen]
    exact ⟨fun h => h.2.2, fun h => ⟨hen.1, hen.2, h⟩⟩
  · rw [if_neg hen]
    exact iff_of_false (fun h => hen ⟨h.1, h.2.1⟩) nofun

/-- The lists of the wait queue header. -/
abbrev waitHeader : WaitHeader where
  addWaitQueue wait q := wait :: q
  addWaitQueueTail wait q := q ++ [wait]
  removeWaitQueue wait q := q.erase wait
  addWaitQueue_eq _ _ := rfl
  addWaitQueueTail_eq _ _ := rfl
  removeWaitQueue_eq _ _ := rfl

/-- Two OTHER tasks. -/
def twoTasks : Sys :=
  ofList [{ timeSlice := 15, pid := 1, array := some .arrays0 },
    { timeSlice := 15, pid := 2, array := some .arrays0 }] 1

omit [WaitHeader] [Param] in
theorem invs_twoTasks : twoTasks.RqInv ∧ twoTasks.NoFlags ∧ twoTasks.SleepInv :=
  ⟨rqInv_ofList (by decide) (by decide), noFlags_ofList (by decide), sleepInv_ofList (by decide)⟩

/-! ## Completions -/

/-- `current` returns from `wait_for_completion`: the number of returns for each completion. -/
def countReturn (w : WaitSys) (op : WaitOp) (n : ℕ → ℕ) (x : ℕ) : ℕ :=
  match w.here, op.exec w with
  | .completion (.other y) _, some w' =>
    if y = x ∧ w'.place w.curr = .outside then n x + 1 else n x
  | _, _ => n x

/-- A call that stays inside is not counted. -/
theorem countReturn_apply {x : ℕ} (hexec : op.exec w = some w') (n : ℕ → ℕ)
    (hstay : ∀ phase, w.here = .completion (.other x) phase → w'.place w.curr ≠ .outside) :
    countReturn w op n x = n x := by
  unfold countReturn
  split
  · next y phase w'' hhere hexec' =>
    obtain rfl := Option.some.inj (hexec.symm.trans hexec')
    refine if_neg ?_
    rintro ⟨rfl, hout⟩
    exact hstay phase hhere hout
  · rfl

/-- A call that returns is. -/
theorem countReturn_self {x : ℕ} {phase : CompletionPhase} (hexec : op.exec w = some w') (n : ℕ → ℕ)
    (hhere : w.here = .completion (.other x) phase) (hout : w'.place w.curr = .outside) :
    countReturn w op n x = n x + 1 := by
  unfold countReturn
  rw [hhere, hexec]
  dsimp only
  rw [if_pos ⟨rfl, hout⟩]

omit [WaitHeader] [Param] in
theorem completion_setVfork (p : TaskId) (completion : Completion) (w : WaitSys) (x : ℕ) :
    (w.setCompletion (.vfork p) completion).completion (.other x) = w.completion (.other x) :=
  completion_of_ne CompletionPtr.noConfusion _ _

omit [WaitHeader] in
theorem completion_complete {x y : CompletionPtr} (h : y ≠ x) (w : WaitSys) :
    (w.complete x).completion y = w.completion y :=
  completion_of_ne h _ w

/-- A piece of `wait_for_completion` that returns takes one from `done`. -/
theorem done_proceed (hcall : w.proceed = some w') (n : ℕ → ℕ) (x : ℕ) :
    (w'.completion (.other x)).done.toNat + countReturn w .proceed n x =
      (w.completion (.other x)).done.toNat + n x := by
  have hpiece := piece_proceed hcall
  have hexec : WaitOp.proceed.exec w = some w' := hcall
  by_cases hwaits : ∃ phase, w.here = .completion (.other x) phase
  · obtain ⟨phase, hhere⟩ := hwaits
    rcases hpiece.here _ phase hhere with ⟨⟨phase', hplace⟩, hdone⟩ | ⟨hpos, hdone, hplace⟩
    · rw [hdone, countReturn_apply hexec]
      intro _ _
      rw [hplace]
      exact Place.noConfusion
    · have hle : (1 : UInt32) ≤ (w.completion (.other x)).done := by
        rw [UInt32.le_iff_toNat_le]
        exact Nat.one_le_iff_ne_zero.mpr fun hc => hpos (UInt32.toNat_inj.mp hc)
      rw [hdone, countReturn_self hexec n hhere hplace, UInt32.toNat_sub_of_le _ _ hle]
      have hle : 1 ≤ (w.completion (.other x)).done.toNat := hle
      show _ - 1 + (n x + 1) = _
      omega
  · push Not at hwaits
    rw [hpiece.completion _ hwaits, countReturn_apply hexec]
    exact fun phase hc => absurd hc (hwaits phase)

/-- A `complete` of the completion `x` does not wrap `done` around. -/
def NoWrap (x : ℕ) (w : WaitSys) (op : WaitOp) : Prop :=
  op = .complete x → (w.completion (.other x)).done.toNat + 1 < UInt32.size

instance (x : ℕ) (w : WaitSys) (op : WaitOp) : Decidable (NoWrap x w op) := by
  unfold NoWrap
  infer_instance

/-- What a step adds to `done` and to the returns. -/
theorem done_step {x : ℕ} (hstep : Guarded (NoWrap x) WaitStep w op w') (n : ℕ → ℕ) :
    (w'.completion (.other x)).done.toNat + countReturn w op n x =
      (w.completion (.other x)).done.toNat + n x + if op = .complete x then 1 else 0 := by
  obtain ⟨hsafe, hen, hexec⟩ := hstep
  -- a step that neither completes nor goes on in the function
  have hsame : op ≠ .complete x → w'.completion (.other x) = w.completion (.other x) →
      (∀ phase, w.here = .completion (.other x) phase → w'.place w.curr ≠ .outside) →
      (w'.completion (.other x)).done.toNat + countReturn w op n x =
        (w.completion (.other x)).done.toNat + n x + if op = .complete x then 1 else 0 := by
    intro hne hcompletion hstay
    rw [hcompletion, countReturn_apply hexec n hstay, if_neg hne, Nat.add_zero]
  have hout : w.here = .outside →
      ∀ phase, w.here = .completion (.other x) phase → w'.place w.curr ≠ .outside := by
    intro hhere phase hc
    rw [hhere] at hc
    cases hc
  have hplace : w'.place = w.place →
      ∀ phase, w.here = .completion (.other x) phase → w'.place w.curr ≠ .outside := by
    intro hplace phase hc
    rw [hplace, show w.place w.curr = _ from hc]
    exact Place.noConfusion
  cases op with
  | sched op =>
    obtain ⟨hen, hallows⟩ := hen
    cases schedStep_of_exec hexec with
    | doFork =>
      refine hsame WaitOp.noConfusion ?_ (hout hallows)
      rcases doFork_cases hen with heq | ⟨-, heq⟩
      · rw [heq]
      · rw [heq]
        split
        · exact completion_setVfork w.curr Completion.init w x
        · rfl
    | doForkWake _ hcall =>
      refine hsame WaitOp.noConfusion ?_ (hout hallows)
      obtain ⟨f, -, s, -, rfl⟩ := doForkWake_cases hcall
      split <;> rfl
    | vforkReturn =>
      refine hsame WaitOp.noConfusion rfl fun phase hc => ?_
      rw [show w.here = .vforkOut from hallows] at hc
      cases hc
    | other _ s hs _ _ => exact hsame WaitOp.noConfusion rfl (hplace rfl)
  | enter call =>
    obtain rfl := Option.some.inj hexec
    refine hsame WaitOp.noConfusion ?_ (hout hen.2.1)
    refine (piece_enter hen.2.1).completion _ fun phase => ?_
    rw [hen.2.1]
    exact Place.noConfusion
  | proceed =>
    rw [if_neg WaitOp.noConfusion, Nat.add_zero]
    exact done_proceed hexec n x
  | complete y =>
    obtain rfl := Option.some.inj hexec
    by_cases hy : y = x
    · subst hy
      rw [countReturn_apply hexec n (hplace rfl), if_pos rfl]
      show ((setCompletion _ _ _).completion _).done.toNat + _ = _
      rw [completion_self, WaitInv.toNat_add_one (hsafe rfl)]
      omega
    · refine hsame (fun hc => hy (WaitOp.complete.inj hc)) ?_ (hplace rfl)
      exact completion_complete (fun hc => hy (CompletionPtr.other.inj hc).symm) _
  | mmRelease =>
    obtain rfl := Option.some.inj hexec
    refine hsame WaitOp.noConfusion ?_ (hout hen.2)
    rcases mmRelease_cases w with hmm | ⟨p, -, hmm⟩
    · rw [hmm]
    · rw [hmm]
      exact completion_complete CompletionPtr.noConfusion _
  | wakeUp q mode nrExclusive =>
    obtain rfl := Option.some.inj hexec
    exact hsame WaitOp.noConfusion rfl (hplace rfl)
  | wakeUpSync q mode nrExclusive =>
    obtain rfl := Option.some.inj hexec
    exact hsame WaitOp.noConfusion rfl (hplace rfl)
  | setCondition q holds =>
    obtain rfl := Option.some.inj hexec
    exact hsame WaitOp.noConfusion rfl (hplace rfl)

/-- **A completion is a semaphore.** In every run in which its counter does not wrap around, each
`complete` is still in `done`, or has let one task return from `wait_for_completion`. -/
theorem done_add_returns {s : Sys} {ops : List WaitOp} {n : ℕ → ℕ} {x : ℕ}
    (hrun : Run (Ghost (Guarded (NoWrap x) WaitStep) countReturn) (start s, fun _ => 0) ops (w, n)) :
    (w.completion (.other x)).done.toNat + n x = ops.count (.complete x) := by
  let m : WaitSys × (ℕ → ℕ) → ℕ := fun y => (y.1.completion (.other x)).done.toNat + y.2 x
  have hcount : m (w, n) = m (start s, fun _ => 0) + ops.countP (· = .complete x) :=
    hrun.measure_eq_add_countP fun y op y' hstep => by
      show _ + y'.2 x = _
      rw [hstep.2]
      exact done_step hstep.1 y.2
  have hstart : m (start s, fun _ => 0) = 0 := rfl
  rw [hstart, Nat.zero_add] at hcount
  rw [List.count_eq_countP]
  exact hcount

omit [WaitHeader] [Param] in
/-- Task 1 waits, task 2 completes the completion and yields, and task 1 returns. -/
theorem done_add_returns_one :
    let ops : List WaitOp := [.enter (.waitForCompletion 5), .proceed, .proceed, .complete 5,
      .sched .sysSchedYield, .proceed]
    ∃ w n, Run (Ghost (Guarded (NoWrap 5) (@WaitStep waitHeader hz100))
        (@countReturn waitHeader hz100)) (start twoTasks, fun _ => 0) ops (w, n) ∧
      w.here = .outside ∧ n 5 = 1 := by
  intro ops
  have hresult : (@runWith WaitSys WaitOp (@stepIf waitHeader hz100 (NoWrap 5) _) ops
      (start twoTasks)).map (fun w => (w.here, (w.completion (.other 5)).done)) =
      some (.outside, 0) := by decide +kernel
  obtain ⟨w, hw, hview⟩ := Option.map_eq_some_iff.mp hresult
  obtain ⟨hhere, hdone⟩ := Prod.mk.inj hview
  have hrun := (@run_iff_stepIf _ _ waitHeader hz100 _ _ _).mpr hw
  obtain ⟨n, hghost⟩ : ∃ n, Run (Ghost (Guarded (NoWrap 5) (@WaitStep waitHeader hz100))
      (@countReturn waitHeader hz100)) (start twoTasks, fun _ => 0) ops (w, n) :=
    hrun.exists_ghost _
  have hspec := @done_add_returns _ waitHeader hz100 _ _ _ _ hghost
  rw [hdone] at hspec
  refine ⟨w, n, hghost, hhere, ?_⟩
  rw [← Nat.zero_add (n 5)]
  exact hspec

/-! ## `vfork` -/

omit [WaitHeader] [Param] in
/-- A parent that is let go runs. -/
theorem WaitInv.parent_runs (h : WaitInv w) {phase : CompletionPhase} (hne : p ≠ w.curr)
    (hp : w.place p = .completion (.vfork p) phase)
    (hdone : (w.completion (.vfork p)).done = 1) : (w.sys.task p).state = .running := by
  have hon : (w.place p).OnCompletion (.vfork p) := by
    have hparked := h.parked p hne
    rw [hp] at hparked ⊢
    cases phase with
    | wake => exact rfl
    | call | sleep => exact hparked.elim
  have hmem : (⟨p, true⟩ : WaitEntry) ∈ (w.completion (.vfork p)).wait.taskList :=
    (h.onCompletion _ _).mpr ⟨rfl, hon⟩
  have hpos : 0 < w.sys.awake (w.completion (.vfork p)).wait.taskList := by
    rcases h.served (.vfork p) with hserved | hall
    · rw [hdone] at hserved
      exact hserved
    · rw [hall]
      exact List.length_pos_of_mem hmem
  obtain ⟨wait, hwait, hruns⟩ := List.countP_pos_iff.mp hpos
  have hsame : wait.task = p := h.eq_of_onCompletion ((h.onCompletion _ wait).mp hwait).2
  rw [← hsame]
  exact of_decide_eq_true hruns

end WaitSys
end ShortSched
