import ShortSched.MigrationInvariant

/-!
# The steps of the affinity code

Every step keeps the invariant of requests, children and CPUs.
-/

namespace ShortSched

/-- No request is for a task whose structure is not in use. -/
theorem MigOp.Fresh.unasked {s : MigSys} {child : TaskId} (h : MigOp.Fresh s child) (t : TaskId)
    (rq : ℕ) : ¬(s.pc t).Asks child rq := by
  intro hask
  cases hpc : s.pc t with
  | requested q rq' =>
    rw [hpc] at hask
    exact (h.unrequested t rq').1 (by rw [hpc, hask.1])
  | waits q rq' =>
    rw [hpc] at hask
    exact (h.unrequested t rq').2 (by rw [hpc, hask.1])
  | outside | forking | setting =>
    rw [hpc] at hask
    exact hask

namespace MigSys

variable {s s' : MigSys} {c rq : ℕ} {p t child : TaskId} {req : MigrationReq} {op : MigOp}

namespace MigInv

/-! ## `schedule` -/

/-- `schedule` may take the task that it switches from off the runqueue, and touches no other. -/
theorem schedule_task_cases (c : ℕ) (next : TaskId) (sleep : Bool) (q : TaskId) (s : MigSys) :
    q = s.curr c ∧
        (s.schedule c next sleep).task q =
          { s.task q with queued := (s.task q).queued && !sleep } ∨
      q ≠ s.curr c ∧ (s.schedule c next sleep).task q = s.task q := by
  rcases modify_task_cases (s.curr c) q (fun t => { t with queued := t.queued && !sleep }) s with
    ⟨rfl, hat⟩ | hother
  · exact .inl ⟨rfl, hat⟩
  · exact .inr hother

/-- It writes no CPU and no mask. -/
theorem schedule_cpu (c : ℕ) (next : TaskId) (sleep : Bool) (q : TaskId) (s : MigSys) :
    ((s.schedule c next sleep).task q).cpu = (s.task q).cpu ∧
      ((s.schedule c next sleep).task q).cpusAllowed = (s.task q).cpusAllowed := by
  rcases schedule_task_cases c next sleep q s with ⟨-, hat⟩ | ⟨-, hat⟩
  · rw [hat]
    exact ⟨rfl, rfl⟩
  · rw [hat]
    exact ⟨rfl, rfl⟩

/-- It changes what one CPU runs. -/
theorem schedule_curr_cases (c : ℕ) (next : TaskId) (sleep : Bool) (c' : ℕ) (s : MigSys) :
    c' = c ∧ (s.schedule c next sleep).curr c' = next ∨
      c' ≠ c ∧ (s.schedule c next sleep).curr c' = s.curr c' := by
  by_cases hc : c' = c
  · subst hc
    exact .inl ⟨rfl, Function.update_self ..⟩
  · exact .inr ⟨hc, Function.update_of_ne hc ..⟩

/-- An ordinary task that `schedule` switches to is queued. -/
theorem picked_queued {next : TaskId} {sleep : Bool}
    (hen : (MigOp.schedule c next sleep).Enabled s) (hord : s.Ordinary next) :
    ((s.schedule c next sleep).task next).queued = true := by
  obtain ⟨-, -, hidle | ⟨hthread, -⟩ | ⟨-, hqueued⟩, -⟩ := hen
  · exact absurd hidle (hord c).1
  · exact absurd hthread (hord c).2
  · exact hqueued

/-- Two CPUs do not run one task. -/
theorem curr_injective (h : s.MigInv) : Function.Injective s.curr := by
  intro c c' heq
  rw [← h.curr_cpu c, ← h.curr_cpu c', heq]

/-- `schedule` takes no child that is still being made. -/
theorem embryo_schedule {next : TaskId} {sleep : Bool} (h : s.MigInv)
    (hen : (MigOp.schedule c next sleep).Enabled s) (hfork : s.pc t = .forking child) :
    (s.schedule c next sleep).Embryo t child := by
  have hchild := h.embryo t child hfork
  have hidle : ((s.schedule c next sleep).task child).queued = false := by
    rcases schedule_task_cases c next sleep child s with ⟨hat, -⟩ | ⟨-, hat⟩
    · exact absurd hat.symm (hchild.asleep c)
    · rw [hat]
      exact hchild.idle
  refine ⟨hchild.ordinary, hidle, fun c' hruns => ?_, hchild.outside, hchild.unique,
    hchild.unasked⟩
  rcases schedule_curr_cases c next sleep c' s with ⟨-, hat⟩ | ⟨-, hat⟩
  · obtain rfl : next = child := hat.symm.trans hruns
    rw [picked_queued hen hchild.ordinary] at hidle
    cases hidle
  · exact hchild.asleep c' (hat ▸ hruns)

/-- What runs after `schedule` is queued, if it is an ordinary task. -/
theorem running_schedule {next : TaskId} {sleep : Bool} {c' : ℕ} (h : s.MigInv)
    (hen : (MigOp.schedule c next sleep).Enabled s)
    (hord : s.Ordinary ((s.schedule c next sleep).curr c')) :
    ((s.schedule c next sleep).task ((s.schedule c next sleep).curr c')).queued = true := by
  rcases schedule_curr_cases c next sleep c' s with ⟨-, hat⟩ | ⟨hc, hat⟩
  · rw [hat] at hord ⊢
    exact picked_queued hen hord
  · rw [hat] at hord ⊢
    rcases schedule_task_cases c next sleep (s.curr c') s with ⟨hat', -⟩ | ⟨-, hat'⟩
    · exact absurd (h.curr_injective hat') hc
    · rw [hat']
      exact h.running c' hord

/-- A task in the middle of `set_cpus_allowed` is not switched from. -/
theorem not_busy_curr (hmay : s.MaySwitch c) : ¬(s.pc (s.curr c)).Busy := by
  intro hbusy
  cases hpc : s.pc (s.curr c) with
  | setting p newMask => exact hmay.1 p newMask hpc
  | requested p rq => exact hmay.2.1 p rq hpc
  | outside | forking | waits =>
    rw [hpc] at hbusy
    exact hbusy.elim

/-- **`schedule`** keeps the invariant, on whichever CPU it is called. -/
theorem schedule {next : TaskId} {sleep : Bool} (h : s.MigInv)
    (hen : (MigOp.schedule c next sleep).Enabled s) : (s.schedule c next sleep).MigInv := by
  have hcpu := fun q => (schedule_cpu c next sleep q s).1
  refine { h with
    req := ⟨h.req.pend_iff, h.req.nodup⟩
    embryo := fun t child hfork => h.embryo_schedule hen hfork
    curr_cpu := fun c' => ?curr_cpu
    idle_cpu := fun c' => (hcpu _).trans (h.idle_cpu c')
    thread_cpu := fun c' => (hcpu _).trans (h.thread_cpu c')
    running := fun c' hord => h.running_schedule hen hord
    allowed := fun q => ?allowed
    busy := fun t hbusy => ?busy
    works := fun c' hworks => ?works
    woken := fun t p rq hwaits hsem => ?woken }
  case curr_cpu =>
    rcases schedule_curr_cases c next sleep c' s with ⟨rfl, hat⟩ | ⟨-, hat⟩
    · rw [hat]
      exact hen.2.1
    · rw [hat, hcpu]
      exact h.curr_cpu c'
  case allowed =>
    rw [(schedule_cpu c next sleep q s).2]
    exact h.allowed q
  case busy =>
    have hruns := h.busy t hbusy
    rw [hcpu]
    rcases schedule_curr_cases c next sleep (s.task t).cpu s with ⟨hc, -⟩ | ⟨-, hat⟩
    · rw [hc] at hruns
      rw [← hruns] at hbusy
      exact absurd hbusy (not_busy_curr hen.1)
    · rw [hat]
      exact hruns
  case works =>
    have hruns := h.works c' hworks
    rcases schedule_curr_cases c next sleep c' s with ⟨rfl, -⟩ | ⟨-, hat⟩
    · -- a migration thread is switched from only when it has no request
      have hasleep : (s.thread c').req ≠ [] := hworks
      rw [hen.1.2.2 hruns] at hasleep
      exact absurd rfl hasleep
    · rw [hat]
      exact hruns
  case woken =>
    have hqueued := h.woken t p rq hwaits hsem
    rcases schedule_task_cases c next sleep t s with ⟨rfl, hat⟩ | ⟨-, hat⟩
    · rw [hat]
      dsimp only
      rw [hqueued]
      cases sleep with
      | false => rfl
      | true => exact absurd (hen.2.2.2 rfl p rq hwaits) hsem
    · rw [hat]
      exact hqueued

/-! ## `do_fork` -/

theorem copyTask_task_of_ne (hne : p ≠ child) : (s.copyTask c child).task p = s.task p :=
  Function.update_of_ne hne ..

theorem copyTask_pc_cases (c : ℕ) (child t : TaskId) (s : MigSys) :
    t = s.curr c ∧ (s.copyTask c child).pc t = .forking child ∨
      t ≠ s.curr c ∧ (s.copyTask c child).pc t = s.pc t :=
  goto_pc_cases (s.curr c) t (.forking child) _

/-- The copy adds no request. -/
theorem asks_of_copyTask (hask : ((s.copyTask c child).pc t).Asks p rq) : (s.pc t).Asks p rq := by
  rcases copyTask_pc_cases c child t s with ⟨-, hat⟩ | ⟨-, hat⟩
  · rw [hat] at hask
    exact hask.elim
  · rwa [hat] at hask

/-- The new child. -/
theorem embryo_child (hfresh : MigOp.Fresh s child) :
    (s.copyTask c child).Embryo (s.curr c) child := by
  have hne : child ≠ s.curr c := fun heq => hfresh.asleep c heq.symm
  have hcopy : ((s.copyTask c child).task child).queued = false :=
    congrArg MigTask.queued (Function.update_self (f := s.task) child _)
  refine ⟨hfresh.ordinary, hcopy, hfresh.asleep, ?_, fun t hfork => ?_, fun t rq hask => ?_⟩
  · rcases copyTask_pc_cases c child child s with ⟨heq, -⟩ | ⟨-, hat⟩
    · exact absurd heq hne
    · rw [hat]
      exact hfresh.outside
  · rcases copyTask_pc_cases c child t s with ⟨heq, -⟩ | ⟨-, hat⟩
    · exact heq
    · exact absurd (hat ▸ hfork) (hfresh.unforked t)
  · exact hfresh.unasked t rq (asks_of_copyTask hask)

/-- A child that another task is making. -/
theorem embryo_other (h : s.MigInv) (hfresh : MigOp.Fresh s child) (hfork : s.pc t = .forking p) :
    (s.copyTask c child).Embryo t p := by
  have hold := h.embryo t p hfork
  have hne : p ≠ child := by
    rintro rfl
    exact hfresh.unforked t hfork
  refine ⟨hold.ordinary, ?_, hold.asleep, ?_, fun t' hfork' => ?_, fun t' rq hask =>
    hold.unasked t' rq (asks_of_copyTask hask)⟩
  · rw [copyTask_task_of_ne hne]
    exact hold.idle
  · rcases copyTask_pc_cases c child p s with ⟨heq, -⟩ | ⟨-, hat⟩
    · exact absurd heq.symm (hold.asleep c)
    · rw [hat]
      exact hold.outside
  · rcases copyTask_pc_cases c child t' s with ⟨-, hat⟩ | ⟨-, hat⟩
    · exact absurd (TaskPc.forking.inj (hat.symm.trans hfork')).symm hne
    · exact hold.unique t' (hat ▸ hfork')

/-- `*p = *current` -/
theorem copyTask (h : s.MigInv) (hord : s.Ordinary (s.curr c)) (hpc : s.pc (s.curr c) = .outside)
    (hfresh : MigOp.Fresh s child) : (s.copyTask c child).MigInv := by
  set s' := s.copyTask c child with hs'
  have hcopied : ∀ q, q ≠ child → s'.task q = s.task q := fun _ => copyTask_task_of_ne
  have hat : ∀ t, t = s.curr c ∧ s'.pc t = .forking child ∨ t ≠ s.curr c ∧ s'.pc t = s.pc t :=
    fun t => copyTask_pc_cases c child t s
  have hidle : ∀ c', s.idle c' ≠ child := fun c' heq => (hfresh.ordinary c').1 heq.symm
  have hthread : ∀ c', s.migrationThread c' ≠ child := fun c' heq =>
    (hfresh.ordinary c').2 heq.symm
  refine { h with
    req := ?req
    embryo := fun t q hfork => ?embryo
    curr_cpu := fun c' =>
      (congrArg MigTask.cpu (hcopied _ (hfresh.asleep c'))).trans (h.curr_cpu c')
    idle_cpu := fun c' => (congrArg MigTask.cpu (hcopied _ (hidle c'))).trans (h.idle_cpu c')
    thread_cpu := fun c' => (congrArg MigTask.cpu (hcopied _ (hthread c'))).trans (h.thread_cpu c')
    running := fun c' hord =>
      (congrArg MigTask.queued (hcopied _ (hfresh.asleep c'))).trans (h.running c' hord)
    inside := fun t hin => ?inside
    setting := fun t q newMask hset => ?setting
    asked := fun t q rq hask => h.asked t q rq (asks_of_copyTask hask)
    allowed := fun q => ?allowed
    busy := fun t hbusy => ?busy
    noticed := fun c' hqueue => ?noticed
    woken := fun t q rq hwaits hsem => ?woken
    finite := finite_goto h.finite }
  case req =>
    have hgo : (s.goto (s.curr c) (.forking child)).ReqInv := by
      refine h.req.goto (fun q rq => ?_) fun _ _ => id
      rw [hpc]
      exact id
    exact ⟨hgo.pend_iff, hgo.nodup⟩
  case embryo =>
    rcases hat t with ⟨rfl, hat'⟩ | ⟨-, hat'⟩
    · obtain rfl := TaskPc.forking.inj (hat'.symm.trans hfork)
      exact embryo_child hfresh
    · exact embryo_other h hfresh (hat' ▸ hfork)
  case inside =>
    rcases hat t with ⟨rfl, -⟩ | ⟨-, hat'⟩
    · exact hord
    · exact h.inside t (hat' ▸ hin)
  case setting =>
    rcases hat t with ⟨-, hat'⟩ | ⟨-, hat'⟩
    · cases hat'.symm.trans hset
    · exact h.setting t q newMask (hat' ▸ hset)
  case allowed =>
    by_cases hq : q = child
    · -- the child has the mask of its parent
      have hcopy : s'.task child = _ := Function.update_self ..
      rw [hq, hcopy]
      exact h.allowed (s.curr c)
    · rw [hcopied q hq]
      exact h.allowed q
  case busy =>
    rcases hat t with ⟨-, hat'⟩ | ⟨-, hat'⟩
    · rw [hat'] at hbusy
      exact hbusy.elim
    · rw [hat'] at hbusy
      have hruns := h.busy t hbusy
      rw [hcopied t fun heq => hfresh.asleep _ (hruns.trans heq)]
      exact hruns
  case noticed =>
    rcases h.noticed c' hqueue with hawake | ⟨t, q, hreq⟩
    · exact .inl hawake
    · refine .inr ⟨t, q, ?_⟩
      rcases hat t with ⟨rfl, -⟩ | ⟨-, hat'⟩
      · cases hpc.symm.trans hreq
      · rw [hat']
        exact hreq
  case woken =>
    rcases hat t with ⟨-, hat'⟩ | ⟨-, hat'⟩
    · cases hat'.symm.trans hwaits
    · rw [hat'] at hwaits
      rw [hcopied t]
      · exact h.woken t q rq hwaits hsem
      · rintro rfl
        cases hfresh.outside.symm.trans hwaits

/-! ## Requests and answers -/

/-- `list_add(&req.list, &rq->migration_queue)` for a task that is queued or runs. -/
theorem request {newMask mask : UInt32} (h : s.MigInv) (hpc : s.pc t = .setting p newMask)
    (hmask : mask ≠ 0) (hqueued : (s.task p).queued = true ∨ p = s.curr (s.task p).cpu) :
    let s₁ := s.modify p fun t => { t with cpusAllowed := mask }
    ({ s₁ with
      sem := Function.update s.sem t 0
      migrationQueue := Function.update s.migrationQueue (s.task p).cpu
        (⟨t, p⟩ :: s.migrationQueue (s.task p).cpu) }.goto t (.requested p (s.task p).cpu)).MigInv := by
  intro s₁
  have hset : s₁.MigInv := h.modify (.inl rfl) (.inl rfl) hmask
  have hnot : ∀ q c, ¬(s₁.pc t).Asks q c := by
    intro q c
    show ¬(s.pc t).Asks q c
    rw [hpc]
    exact id
  have hrunning : s.curr (s₁.task t).cpu = t := by
    refine hset.busy t ?_
    show (s.pc t).Busy
    rw [hpc]
    trivial
  set rq := (s.task p).cpu
  set s₂ := { s₁ with
    sem := Function.update s.sem t 0
    migrationQueue := Function.update s.migrationQueue rq (⟨t, p⟩ :: s.migrationQueue rq) } with hs₂
  have hat : ∀ t', t' = t ∧ (s₂.goto t (.requested p rq)).pc t' = .requested p rq ∨
      t' ≠ t ∧ (s₂.goto t (.requested p rq)).pc t' = s.pc t' :=
    fun t' => goto_pc_cases t t' (.requested p rq) s₂
  have hord : s.Ordinary p := h.setting t p newMask hpc
  refine { hset with
    req := hset.req.request hnot p rq
    embryo := fun t' q hfork => ?embryo
    inside := fun t' hin => ?inside
    setting := fun t' q newMask' hset' => ?setting
    asked := fun t' q rq' hask => ?asked
    busy := fun t' hbusy => ?busy
    noticed := fun c hqueue => ?noticed
    woken := fun t' q rq' hwaits hsem => ?woken
    finite := finite_goto (s := s₂) h.finite }
  case embryo =>
    rcases hat t' with ⟨-, hat'⟩ | ⟨-, hat'⟩
    · cases hat'.symm.trans hfork
    have hold := hset.embryo t' q (hat' ▸ hfork)
    refine ⟨hold.ordinary, hold.idle, hold.asleep, ?_, fun t₁ ht₁ => ?_, fun t₁ rq' hask => ?_⟩
    · rcases hat q with ⟨rfl, -⟩ | ⟨-, hat''⟩
      · cases hpc.symm.trans hold.outside
      · rw [hat'']
        exact hold.outside
    · rcases hat t₁ with ⟨-, hat''⟩ | ⟨-, hat''⟩
      · cases hat''.symm.trans ht₁
      · exact hold.unique t₁ (hat'' ▸ ht₁)
    · rcases hat t₁ with ⟨-, hat''⟩ | ⟨-, hat''⟩
      · -- a child that is being made is neither queued nor runs
        rw [hat''] at hask
        obtain rfl : p = q := hask.1
        have hchild := h.embryo t' p (hat' ▸ hfork)
        rcases hqueued with hqueued | hruns
        · rw [hchild.idle] at hqueued
          cases hqueued
        · exact hchild.asleep _ hruns.symm
      · exact hold.unasked t₁ rq' (hat'' ▸ hask)
  case inside =>
    rcases hat t' with ⟨rfl, -⟩ | ⟨-, hat'⟩
    · exact h.inside t' (by rw [hpc]; exact TaskPc.noConfusion)
    · exact h.inside t' (hat' ▸ hin)
  case setting =>
    rcases hat t' with ⟨-, hat'⟩ | ⟨-, hat'⟩
    · cases hat'.symm.trans hset'
    · exact h.setting t' q newMask' (hat' ▸ hset')
  case asked =>
    rcases hat t' with ⟨-, hat'⟩ | ⟨-, hat'⟩
    · rw [hat'] at hask
      obtain rfl : p = q := hask.1
      exact hord
    · exact h.asked t' q rq' (hat' ▸ hask)
  case busy =>
    rcases hat t' with ⟨rfl, -⟩ | ⟨-, hat'⟩
    · exact hrunning
    · exact hset.busy t' (hat' ▸ hbusy)
  case noticed =>
    by_cases hc : c = rq
    · -- the caller itself is about to wake the thread
      refine .inr ⟨t, p, ?_⟩
      rw [hc]
      exact goto_pc_self ..
    · have hqueue : Function.update s.migrationQueue rq _ c ≠ [] := hqueue
      rw [Function.update_of_ne hc] at hqueue
      rcases hset.noticed c hqueue with hawake | ⟨t', q, hreq⟩
      · exact .inl hawake
      · refine .inr ⟨t', q, ?_⟩
        rcases hat t' with ⟨rfl, -⟩ | ⟨-, hat'⟩
        · cases hpc.symm.trans hreq
        · rw [hat']
          exact hreq
  case woken =>
    rcases hat t' with ⟨-, hat'⟩ | ⟨hne, hat'⟩
    · cases hat'.symm.trans hwaits
    · have hsem' : Function.update s.sem t 0 t' ≠ 0 := hsem
      rw [Function.update_of_ne hne] at hsem'
      exact hset.woken t' q rq' (hat' ▸ hwaits) hsem'

/-- `up(&req->sem)` wakes the caller. -/
theorem answer (h : s.MigInv) (hthread : s.thread c = .moved req) :
    ((s.up req.caller).setThread c .loop).MigInv := by
  have hpend : req ∈ s.pend c := by
    rw [pend, hthread]
    exact List.mem_cons_self
  have hasks := ((h.req.pend_iff c req).mp hpend).1
  have hin : s.pc req.caller ≠ .outside := by
    intro hout
    rw [hout] at hasks
    exact hasks
  -- the caller waits in `set_cpus_allowed`, so it is no child that is being made
  have hwake : (s.modify req.caller fun t => { t with queued := true }).MigInv :=
    h.modify (.inl rfl) (.inr ⟨rfl, h.not_forking hin⟩) (h.allowed _)
  refine { hwake with
    req := h.req.answer hthread
    embryo := fun t child hfork => ?embryo
    works := fun c' hreq => ?works
    noticed := fun c' hqueue => ?noticed
    woken := fun t p rq hwaits hsem => ?woken }
  case embryo =>
    have hold := hwake.embryo t child hfork
    exact ⟨hold.ordinary, hold.idle, hold.asleep, hold.outside, hold.unique, hold.unasked⟩
  case works =>
    rcases setThread_cases c c' .loop (s.up req.caller) with ⟨-, hat⟩ | ⟨-, hat⟩
    · rw [hat] at hreq
      exact absurd rfl hreq
    · rw [hat] at hreq
      exact h.works c' hreq
  case noticed =>
    rcases setThread_cases c c' .loop (s.up req.caller) with ⟨-, hat⟩ | ⟨-, hat⟩
    · left
      rw [hat]
      exact ThreadPc.noConfusion
    · rw [hat]
      exact h.noticed c' hqueue
  case woken =>
    by_cases ht : t = req.caller
    · rw [ht]
      exact congrArg MigTask.queued (Function.update_self (f := s.task) req.caller _)
    · have hsem' : Function.update s.sem req.caller (s.sem req.caller + 1) t ≠ 0 := hsem
      rw [Function.update_of_ne ht] at hsem'
      exact hwake.woken t p rq hwaits hsem'

/-! ## The functions -/

/-- **A wake-up** of a task that is no child in the making. -/
theorem tryToWakeUp (h : s.MigInv) (hord : s.Ordinary p) (hfork : ∀ t, s.pc t ≠ .forking p) (c : ℕ)
    (sync : Bool) : (s.tryToWakeUp c p sync).MigInv := by
  rcases tryToWakeUp_cases c p sync s with heq | heq | ⟨-, hidle, -, heq⟩
  · rwa [heq]
  · rw [heq]
    exact h.modify (.inl rfl) (.inr ⟨rfl, hfork⟩) (h.allowed p)
  · rw [heq]
    exact h.modify (.inr ⟨hord, h.not_running hidle⟩) (.inl rfl) (h.allowed p)

/-- The end of `do_fork`, with or without a child. -/
theorem endFork (h : s.MigInv) (hpc : s.pc t = .forking child) : (s.goto t .outside).MigInv := by
  refine h.leave (h.req.goto (fun q rq => ?_) fun _ _ => id) fun q rq hreq => ?_
  · rw [hpc]
    exact id
  · cases hpc.symm.trans hreq

/-- **The child** is placed on the CPU of its parent, and is one no longer. -/
theorem wakeUpForkedProcess (h : s.MigInv) (hpc : s.pc (s.curr c) = .forking child) :
    (s.wakeUpForkedProcess c).MigInv := by
  have hchild := h.embryo _ child hpc
  have hend := h.endFork hpc
  simp only [MigSys.wakeUpForkedProcess, hpc]
  show ((s.goto (s.curr c) .outside).modify child fun t => { t with cpu := c, queued := true }).MigInv
  refine hend.modify (.inr ⟨hchild.ordinary, hchild.asleep⟩) (.inr ⟨rfl, fun t hfork => ?_⟩)
    (hend.allowed child)
  rcases goto_pc_cases (s.curr c) t .outside s with ⟨-, hat⟩ | ⟨hne, hat⟩
  · cases hat.symm.trans hfork
  · exact hne (hchild.unique t (hat ▸ hfork))

/-- **`sys_sched_setaffinity`** up to its call of `set_cpus_allowed`. -/
theorem sysSchedSetaffinity (h : s.MigInv) (hcurr : s.Ordinary (s.curr c))
    (hpc : s.pc (s.curr c) = .outside) (hord : s.Ordinary p) (userMask : UInt32) :
    (s.sysSchedSetaffinity c p userMask).MigInv := by
  obtain ⟨s₁, hs₁, hresult⟩ := sysSchedSetaffinity_cases c p userMask s
  have h₁ : s₁.MigInv := by
    rcases hs₁ with rfl | ⟨-, rfl⟩
    · exact h
    · exact h.modify (.inl rfl) (.inl rfl) (h.allowed p)
  have hsame : s₁.pc = s.pc ∧ s₁.curr = s.curr ∧ ∀ q, s₁.Ordinary q ↔ s.Ordinary q := by
    rcases hs₁ with rfl | ⟨-, rfl⟩
    · exact ⟨rfl, rfl, fun _ => Iff.rfl⟩
    · exact ⟨rfl, rfl, fun _ => Iff.rfl⟩
  obtain ⟨hpcs, hcurrs, hords⟩ := hsame
  rcases hresult with heq | ⟨newMask, -, -, heq⟩
  · rwa [heq]
  rw [heq]
  have hnot : ∀ t', s₁.pc t' ≠ .forking (s.curr c) := by
    intro t' hfork
    rw [hpcs] at hfork
    exact (h.embryo t' _ hfork).asleep c rfl
  refine h₁.goto (h₁.req.goto (fun q rq => ?_) fun _ _ => id) (fun _ => TaskPc.noConfusion)
    (fun _ => ⟨(hords _).mpr hcurr, hnot⟩) (fun q m hset => ?_) (fun _ _ hask => hask.elim)
    (fun _ => ?_) (fun q rq hreq => ?_) fun _ _ => TaskPc.noConfusion
  · rw [hpcs, hpc]
    exact id
  · obtain ⟨rfl, -⟩ := TaskPc.setting.inj hset
    exact (hords _).mpr hord
  · rw [← hcurrs, h₁.curr_cpu]
  · rw [hpcs, hpc] at hreq
    cases hreq

/-- **`set_cpus_allowed`** writes the mask, and posts a request if the task must move. -/
theorem setCpusAllowed {newMask : UInt32} (h : s.MigInv) (hpc : s.pc (s.curr c) = .setting p newMask) :
    (s.setCpusAllowed c).MigInv := by
  rcases setCpusAllowed_cases hpc with ⟨-, heq⟩ | ⟨hmask, hcases⟩
  · rwa [heq]
  have hend : (s.goto (s.curr c) .outside).MigInv := by
    refine h.leave (h.req.goto (fun q rq => ?_) fun _ _ => id) fun q rq hreq => ?_
    · rw [hpc]
      exact id
    · cases hpc.symm.trans hreq
  have hset := hend.modify (p := p) (f := fun t =>
    { t with cpusAllowed := newMask &&& s.cpuOnlineMap }) (.inl rfl) (.inl rfl) hmask
  rcases hcases with ⟨-, heq⟩ | ⟨-, -, hidle, heq⟩ | ⟨-, hqueued, heq⟩
  · rw [heq]
    exact hset
  · rw [heq]
    have hmoves : ∀ c', s.curr c' ≠ p := h.not_running (Ne.symm hidle)
    refine hset.modify (f := fun t => { t with cpu := ffs t.cpusAllowed })
      (.inr ⟨h.setting _ p newMask hpc, hmoves⟩) (.inl rfl) ?_
    exact hset.allowed p
  · rw [heq]
    exact h.request hpc hmask hqueued

/-- **The caller** wakes the migration thread, and is about to wait. -/
theorem wakeThread (h : s.MigInv) (hpc : s.pc (s.curr c) = .requested p rq) :
    (s.wakeThread c).MigInv := by
  have hbusy : s.curr (s.task (s.curr c)).cpu = s.curr c := by
    refine h.busy _ ?_
    rw [hpc]
    trivial
  have hin : s.pc (s.curr c) ≠ .outside := by
    rw [hpc]
    exact TaskPc.noConfusion
  have hord := h.inside _ hin
  -- the thread is woken, if it sleeps
  obtain ⟨s₁, hs₁, h₁, hawake⟩ : ∃ s₁, (s₁ = s ∨ s₁ = s.setThread rq .loop) ∧ s₁.MigInv ∧
      s₁.thread rq ≠ .sleeps ∧ s.wakeThread c = s₁.goto (s.curr c) (.waits p rq) := by
    simp only [MigSys.wakeThread, hpc]
    by_cases hsleeps : s.thread rq = .sleeps
    · rw [if_pos hsleeps]
      refine ⟨_, .inr rfl, ?_, ?_, rfl⟩
      · have hreq : (s.setThread rq .loop).ReqInv := h.req.setThread (by rw [hsleeps]; rfl)
        refine h.threads hreq (fun c' hworks => ?_) fun c' hqueue => ?_
        · rcases setThread_cases rq c' .loop s with ⟨-, hat⟩ | ⟨-, hat⟩
          · have hworks : ((s.setThread rq .loop).thread c').req ≠ [] := hworks
            rw [hat] at hworks
            exact absurd rfl hworks
          · have hworks : ((s.setThread rq .loop).thread c').req ≠ [] := hworks
            rw [hat] at hworks
            exact h.works c' hworks
        · rcases setThread_cases rq c' .loop s with ⟨-, hat⟩ | ⟨-, hat⟩
          · left
            show (s.setThread rq .loop).thread c' ≠ .sleeps
            rw [hat]
            exact ThreadPc.noConfusion
          · show (s.setThread rq .loop).thread c' ≠ .sleeps ∨ _
            rw [hat]
            exact h.noticed c' hqueue
      · have hat : (s.setThread rq .loop).thread rq = .loop := Function.update_self ..
        rw [hat]
        exact ThreadPc.noConfusion
    · rw [if_neg hsleeps]
      exact ⟨s, .inl rfl, h, hsleeps, rfl⟩
  obtain ⟨hawake, heq⟩ := hawake
  have hsame : s₁.pc = s.pc ∧ s₁.curr = s.curr ∧ s₁.task = s.task ∧
      ∀ q, s₁.Ordinary q ↔ s.Ordinary q := by
    rcases hs₁ with rfl | rfl
    · exact ⟨rfl, rfl, rfl, fun _ => Iff.rfl⟩
    · exact ⟨rfl, rfl, rfl, fun _ => Iff.rfl⟩
  obtain ⟨hpcs, hcurrs, htasks, hords⟩ := hsame
  have hpc₁ : s₁.pc (s.curr c) = .requested p rq := by rw [hpcs, hpc]
  have hasks₁ : (s₁.pc (s.curr c)).Asks p rq := by
    rw [hpc₁]
    exact ⟨rfl, rfl⟩
  rw [heq]
  refine h₁.goto (h₁.req.congr (fun _ => rfl) fun t' q c' => ?_) (fun _ => TaskPc.noConfusion)
    (fun _ => ⟨(hords _).mpr hord, h₁.not_forking (by rw [hpcs]; exact hin)⟩)
    (fun _ _ => TaskPc.noConfusion) (fun q rq' hask => ?_) (fun hb => hb.elim) (fun q rq' hreq => ?_)
    fun q rq' _ _ => ?_
  · rcases goto_pc_cases (s.curr c) t' (.waits p rq) s₁ with ⟨rfl, hat⟩ | ⟨-, hat⟩
    · rw [hat, hpc₁]
      exact Iff.rfl
    · rw [hat]
      exact Iff.rfl
  · obtain rfl : p = q := hask.1
    exact ⟨h₁.asked _ p rq hasks₁, fun t' hfork => (h₁.embryo t' p hfork).unasked _ rq hasks₁⟩
  · obtain ⟨-, rfl⟩ := TaskPc.requested.inj (hpc₁.symm.trans hreq)
    exact hawake
  · rw [htasks]
    exact h.running c hord

/-- `down` returns. -/
theorem down (h : s.MigInv) (hpc : s.pc (s.curr c) = .waits p rq) (hsem : s.sem (s.curr c) ≠ 0) :
    (s.down c).MigInv := by
  have hreq : ∀ sem : TaskId → ℕ, (∀ t, t ≠ s.curr c → sem t = s.sem t) →
      ({ s with sem := sem }.goto (s.curr c) .outside).ReqInv := by
    intro sem hsame
    refine h.req.congr (fun _ => rfl) fun t q c' => ?_
    rcases goto_pc_cases (s.curr c) t .outside { s with sem := sem } with ⟨rfl, hat⟩ | ⟨hne, hat⟩
    · refine iff_of_false (fun hask => ?_) fun hask => hsem hask.2
      have hask := hask.1
      rw [hat] at hask
      exact hask
    · rw [hat]
      show _ ∧ sem t = 0 ↔ _
      rw [hsame t hne]
  have hgo : (s.goto (s.curr c) .outside).MigInv := by
    refine h.leave (hreq s.sem fun _ _ => rfl) fun q rq' hasks => ?_
    cases hpc.symm.trans hasks
  refine ⟨hreq _ fun t hne => Function.update_of_ne hne .., fun t child hfork => ?_, hgo.curr_cpu,
    hgo.idle_cpu, hgo.thread_cpu, hgo.running, hgo.inside, hgo.setting, hgo.asked, hgo.allowed,
    hgo.busy, hgo.works, hgo.noticed, fun t q rq' hwaits hcount => ?_, hgo.finite⟩
  · have hold := hgo.embryo t child hfork
    exact ⟨hold.ordinary, hold.idle, hold.asleep, hold.outside, hold.unique, hold.unasked⟩
  · rcases goto_pc_cases (s.curr c) t .outside s with ⟨-, hat⟩ | ⟨hne, -⟩
    · cases hat.symm.trans hwaits
    · have hcount : Function.update s.sem (s.curr c) _ t ≠ 0 := hcount
      rw [Function.update_of_ne hne] at hcount
      exact hgo.woken t q rq' hwaits hcount

/-- The thread goes on with the request that it has. -/
theorem setThread {pc : ThreadPc} (h : s.MigInv) (hcurr : s.curr c = s.migrationThread c)
    (hreq : pc.req = (s.thread c).req) (hpc : pc ≠ .sleeps ∨ s.migrationQueue c = []) :
    (s.setThread c pc).MigInv := by
  refine h.threads (h.req.setThread hreq) (fun c' hworks => ?_) fun c' hqueue => ?_
  · rcases setThread_cases c c' pc s with ⟨rfl, -⟩ | ⟨-, hat⟩
    · exact hcurr
    · refine h.works c' ?_
      rwa [← hat]
  · show (s.setThread c pc).thread c' ≠ .sleeps ∨ _
    rcases setThread_cases c c' pc s with ⟨rfl, hat⟩ | ⟨-, hat⟩
    · rw [hat]
      exact .inl (hpc.resolve_right hqueue)
    · rw [hat]
      exact h.noticed c' hqueue

/-- **The loop of a migration thread**, piece by piece. -/
theorem migrationThreadStep (h : s.MigInv) (hcurr : s.curr c = s.migrationThread c) :
    (s.migrationThreadStep c).MigInv := by
  unfold MigSys.migrationThreadStep
  cases hthread : s.thread c with
  | sleeps => exact h
  | loop =>
    dsimp only
    split
    · next hempty => exact h.setThread hcurr (by rw [hthread]; rfl) (.inr hempty)
    · next req rest hqueue =>
      refine h.threads (h.req.take hthread hqueue) (fun c' hworks => ?_) fun c' hqueue' => ?_
      · rcases setThread_cases c c' (.took req) s with ⟨rfl, -⟩ | ⟨-, hat⟩
        · exact hcurr
        · refine h.works c' ?_
          rwa [← hat]
      · show (s.setThread c (.took req)).thread c' ≠ .sleeps ∨ _
        rcases setThread_cases c c' (.took req) s with ⟨rfl, hat⟩ | ⟨hne, hat⟩
        · rw [hat]
          exact .inl ThreadPc.noConfusion
        · rw [hat]
          have hqueue' : Function.update s.migrationQueue c rest c' ≠ [] := hqueue'
          rw [Function.update_of_ne hne] at hqueue'
          exact h.noticed c' hqueue'
  | took req =>
    exact h.setThread hcurr (by rw [hthread]; rfl) (.inl ThreadPc.noConfusion)
  | moved req => exact h.answer hthread
  | chosen req cpuDest =>
    dsimp only
    split
    · next hcpu =>
      have hpend : req ∈ s.pend c := by
        rw [pend, hthread]
        exact List.mem_cons_self
      have hord : s.Ordinary req.task :=
        h.asked _ _ c ((h.req.pend_iff c req).mp hpend).1
      -- the migration thread runs on the CPU of the task, so that the task does not
      have hmoves : ∀ c', s.curr c' ≠ req.task := by
        refine h.not_running fun hruns => (hord c).2 ?_
        rw [← hruns, hcpu, hcurr]
      have hmove := h.modify (p := req.task) (f := fun t => { t with cpu := cpuDest })
        (.inr ⟨hord, hmoves⟩) (.inl rfl) (h.allowed req.task)
      refine hmove.setThread hcurr ?_ (.inl ThreadPc.noConfusion)
      show _ = (s.thread c).req
      rw [hthread]
      rfl
    · exact h.setThread hcurr (by rw [hthread]; rfl) (.inl ThreadPc.noConfusion)

end MigInv

/-- **The step lemma.** -/
theorem migInv_step (h : s.MigInv) (hstep : SparingStep s op s') : s'.MigInv := by
  obtain ⟨hspares, henabled, rfl⟩ := hstep
  cases op with
  | schedule c next sleep => exact h.schedule henabled
  | tryToWakeUp c p sync => exact h.tryToWakeUp henabled.1 henabled.2 c sync
  | pull c p =>
    obtain ⟨hord, -, -, hidle, -⟩ := henabled
    exact h.modify (f := fun t => { t with cpu := c }) (.inr ⟨hord, h.not_running hidle⟩) (.inl rfl)
      (h.allowed p)
  | copyTask c child => exact h.copyTask henabled.1 henabled.2.1 henabled.2.2
  | wakeUpForkedProcess c =>
    obtain ⟨child, hpc⟩ := henabled
    exact h.wakeUpForkedProcess hpc
  | badFork c =>
    obtain ⟨child, hpc⟩ := henabled
    exact h.endFork hpc
  | sysSchedSetaffinity c p userMask =>
    exact h.sysSchedSetaffinity henabled.1 henabled.2 hspares userMask
  | setCpusAllowed c =>
    obtain ⟨p, newMask, hpc⟩ := henabled
    exact h.setCpusAllowed hpc
  | wakeThread c =>
    obtain ⟨p, rq, hpc⟩ := henabled
    exact h.wakeThread hpc
  | down c =>
    obtain ⟨⟨p, rq, hpc⟩, hsem⟩ := henabled
    exact h.down hpc hsem
  | migrationThread c => exact h.migrationThreadStep henabled.1

/-- No step makes another task the idle task or the migration thread of a CPU. -/
theorem fixed_step (hstep : MigStep s op s') :
    s'.idle = s.idle ∧ s'.migrationThread = s.migrationThread := by
  obtain ⟨henabled, rfl⟩ := hstep
  cases op with
  | schedule | pull | copyTask | badFork | down => exact ⟨rfl, rfl⟩
  | tryToWakeUp c p sync =>
    show (s.tryToWakeUp c p sync).idle = _ ∧ (s.tryToWakeUp c p sync).migrationThread = _
    rcases tryToWakeUp_cases c p sync s with heq | heq | ⟨-, -, -, heq⟩
    all_goals
      rw [heq]
      exact ⟨rfl, rfl⟩
  | wakeUpForkedProcess c =>
    obtain ⟨child, hpc⟩ := henabled
    simp only [MigOp.exec, wakeUpForkedProcess, hpc]
    exact ⟨rfl, rfl⟩
  | sysSchedSetaffinity c p userMask =>
    obtain ⟨s₁, hs₁, hresult⟩ := sysSchedSetaffinity_cases c p userMask s
    have hfixed : s₁.idle = s.idle ∧ s₁.migrationThread = s.migrationThread := by
      rcases hs₁ with rfl | ⟨-, rfl⟩
      all_goals exact ⟨rfl, rfl⟩
    show (s.sysSchedSetaffinity c p userMask).idle = _ ∧
      (s.sysSchedSetaffinity c p userMask).migrationThread = _
    rcases hresult with heq | ⟨newMask, -, -, heq⟩
    all_goals
      rw [heq]
      exact hfixed
  | setCpusAllowed c =>
    obtain ⟨p, newMask, hpc⟩ := henabled
    show (s.setCpusAllowed c).idle = _ ∧ (s.setCpusAllowed c).migrationThread = _
    rcases setCpusAllowed_cases hpc with ⟨-, heq⟩ | ⟨-, ⟨-, heq⟩ | ⟨-, -, -, heq⟩ | ⟨-, -, heq⟩⟩
    all_goals
      rw [heq]
      exact ⟨rfl, rfl⟩
  | wakeThread c =>
    obtain ⟨p, rq, hpc⟩ := henabled
    simp only [MigOp.exec, wakeThread, hpc]
    split
    all_goals exact ⟨rfl, rfl⟩
  | migrationThread c =>
    simp only [MigOp.exec, MigSys.migrationThreadStep]
    split
    · split
      all_goals exact ⟨rfl, rfl⟩
    · exact ⟨rfl, rfl⟩
    · split
      all_goals exact ⟨rfl, rfl⟩
    · exact ⟨rfl, rfl⟩
    · exact ⟨rfl, rfl⟩

theorem ordinary_step (hstep : MigStep s op s') : s'.Ordinary p ↔ s.Ordinary p := by
  obtain ⟨hidle, hthread⟩ := fixed_step hstep
  rw [Ordinary, Ordinary, hidle, hthread]

end MigSys
end ShortSched
