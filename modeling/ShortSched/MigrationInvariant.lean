import Mathlib.Data.Nat.Bitwise
import Mathlib.Data.Set.Finite.Basic
import ShortSched.Migration

/-!
# Requests, children and CPUs

What every step of the affinity code keeps: a request is at one place, and that is where its caller
has put it (`ReqInv`); a child that is being made takes no part in anything (`Embryo`); a task that
runs is queued, and on the CPU that it runs on; a migration thread does not sleep while there is a
request that it has not been woken for (`MigInv`).
-/

namespace ShortSched

/-! ## Masks -/

section Masks

variable {mask mask' : UInt32} {cpu : ℕ}

theorem toNat_one_shiftLeft (cpu : ℕ) :
    ((1 : UInt32) <<< UInt32.ofNat cpu).toNat = 2 ^ (cpu % 32) := by
  rw [UInt32.toNat_shiftLeft, UInt32.toNat_ofNat', UInt32.toNat_one, Nat.one_shiftLeft,
    Nat.mod_mod_of_dvd _ (by decide)]
  exact Nat.mod_eq_of_lt (Nat.pow_lt_pow_right Nat.one_lt_two (Nat.mod_lt cpu (by decide)))

theorem one_shiftLeft_ne_zero (cpu : ℕ) : (1 : UInt32) <<< UInt32.ofNat cpu ≠ 0 := by
  intro hzero
  have hpow := toNat_one_shiftLeft cpu
  rw [hzero] at hpow
  exact absurd hpow (Nat.two_pow_pos (cpu % 32)).ne

theorem maskHas_iff : MaskHas mask cpu ↔ mask.toNat.testBit (cpu % 32) = true := by
  rw [MaskHas, ne_eq, ← UInt32.toNat_inj, UInt32.toNat_and, toNat_one_shiftLeft,
    UInt32.toNat_zero, Nat.and_two_pow]
  cases mask.toNat.testBit (cpu % 32) with
  | false => simp
  | true => simp

theorem maskHas_and : MaskHas (mask &&& mask') cpu ↔ MaskHas mask cpu ∧ MaskHas mask' cpu := by
  rw [maskHas_iff, maskHas_iff, maskHas_iff, UInt32.toNat_and, Nat.testBit_and, Bool.and_eq_true]

theorem maskHas_or : MaskHas (mask ||| mask') cpu ↔ MaskHas mask cpu ∨ MaskHas mask' cpu := by
  rw [maskHas_iff, maskHas_iff, maskHas_iff, UInt32.toNat_or, Nat.testBit_or, Bool.or_eq_true]

/-- `__ffs` of a mask that is not empty is one of its CPUs. -/
theorem maskHas_ffs (h : mask ≠ 0) : MaskHas mask (ffs mask) := by
  have hsome : ∃ cpu ∈ List.range 32, MaskHas mask cpu := by
    have hne : mask.toNat ≠ 0 := fun hzero => h (UInt32.toNat_inj.mp hzero)
    obtain ⟨i, hi⟩ := Nat.exists_testBit_of_ne_zero hne
    have hlt : i < 32 := by
      by_contra hge
      have hle : 2 ^ 32 ≤ 2 ^ i := Nat.pow_le_pow_right Nat.two_pos (not_lt.mp hge)
      have hsmall : mask.toNat < 2 ^ i := lt_of_lt_of_le mask.toNat_lt hle
      rw [Nat.testBit_lt_two_pow hsmall] at hi
      cases hi
    refine ⟨i, List.mem_range.mpr hlt, maskHas_iff.mpr ?_⟩
    rwa [Nat.mod_eq_of_lt hlt]
  unfold ffs
  cases hfind : (List.range 32).find? fun cpu => decide (MaskHas mask cpu) with
  | none =>
    obtain ⟨cpu, hmem, hhas⟩ := hsome
    exact absurd (decide_eq_true hhas) (List.find?_eq_none.mp hfind cpu hmem)
  | some cpu =>
    have hhas := List.find?_some hfind
    exact of_decide_eq_true hhas

end Masks

/-! ## Requests -/

namespace TaskPc

/-- The task has a request for `p` with the runqueue `rq`, and has not returned. -/
def Asks (p : TaskId) (rq : ℕ) : TaskPc → Prop
  | requested q rq' | waits q rq' => q = p ∧ rq' = rq
  | outside | forking _ | setting _ _ => False

/-- The task is in `sys_sched_setaffinity` or `set_cpus_allowed` and does not sleep. -/
def Busy : TaskPc → Prop
  | setting _ _ | requested _ _ => True
  | outside | forking _ | waits _ _ => False

theorem Asks.eq {pc : TaskPc} {p q : TaskId} {rq rq' : ℕ} (h : pc.Asks p rq) (h' : pc.Asks q rq') :
    p = q ∧ rq = rq' := by
  cases pc with
  | requested | waits => exact ⟨h.1.symm.trans h'.1, h.2.symm.trans h'.2⟩
  | outside | forking | setting => exact h.elim

end TaskPc

namespace ThreadPc

/-- The request that the thread has taken and not answered. -/
def req : ThreadPc → List MigrationReq
  | took req | chosen req _ | moved req => [req]
  | loop | sleeps => []

/-- The request whose task the thread has not looked at. -/
def unserved : ThreadPc → List MigrationReq
  | took req | chosen req _ => [req]
  | loop | sleeps | moved _ => []

theorem mem_req_of_unserved {pc : ThreadPc} {req : MigrationReq} (h : req ∈ pc.unserved) :
    req ∈ pc.req := by
  cases pc with
  | took | chosen => exact h
  | loop | sleeps | moved => cases h

end ThreadPc

namespace MigSys

variable {s s' : MigSys} {c rq : ℕ} {p t child caller : TaskId} {pc : TaskPc} {req : MigrationReq}
  {f : MigTask → MigTask}

/-- The requests that CPU `c` has to answer. -/
def pend (s : MigSys) (c : ℕ) : List MigrationReq :=
  (s.thread c).req ++ s.migrationQueue c

/-- Those whose task it has still to look at. -/
def unserved (s : MigSys) (c : ℕ) : List MigrationReq :=
  (s.thread c).unserved ++ s.migrationQueue c

theorem mem_pend_of_unserved (h : req ∈ s.unserved c) : req ∈ s.pend c := by
  rcases List.mem_append.mp h with h | h
  · exact List.mem_append_left _ (ThreadPc.mem_req_of_unserved h)
  · exact List.mem_append_right _ h

/-- A request is where its caller has put it, until it is answered, and only there. -/
structure ReqInv (s : MigSys) : Prop where
  pend_iff : ∀ c req, req ∈ s.pend c ↔ (s.pc req.caller).Asks req.task c ∧ s.sem req.caller = 0
  nodup : ∀ c, (s.pend c).Nodup

theorem goto_task (t : TaskId) (pc : TaskPc) (s : MigSys) : (s.goto t pc).task = s.task := rfl

theorem goto_pc_self (t : TaskId) (pc : TaskPc) (s : MigSys) : (s.goto t pc).pc t = pc :=
  Function.update_self ..

theorem goto_pc_of_ne {t t' : TaskId} (h : t' ≠ t) (pc : TaskPc) (s : MigSys) :
    (s.goto t pc).pc t' = s.pc t' :=
  Function.update_of_ne h ..

theorem modify_task_self (p : TaskId) (f : MigTask → MigTask) (s : MigSys) :
    (s.modify p f).task p = f (s.task p) :=
  Function.update_self ..

theorem modify_task_of_ne {p q : TaskId} (h : q ≠ p) (f : MigTask → MigTask) (s : MigSys) :
    (s.modify p f).task q = s.task q :=
  Function.update_of_ne h ..

/-- What holds of both tasks holds of every task after a change of one. -/
theorem modify_task_cases (p q : TaskId) (f : MigTask → MigTask) (s : MigSys) :
    q = p ∧ (s.modify p f).task q = f (s.task p) ∨ q ≠ p ∧ (s.modify p f).task q = s.task q := by
  by_cases h : q = p
  · subst h
    exact .inl ⟨rfl, modify_task_self ..⟩
  · exact .inr ⟨h, modify_task_of_ne h ..⟩

theorem goto_pc_cases (t t' : TaskId) (pc : TaskPc) (s : MigSys) :
    t' = t ∧ (s.goto t pc).pc t' = pc ∨ t' ≠ t ∧ (s.goto t pc).pc t' = s.pc t' := by
  by_cases h : t' = t
  · subst h
    exact .inl ⟨rfl, goto_pc_self ..⟩
  · exact .inr ⟨h, goto_pc_of_ne h ..⟩

theorem setThread_cases (c c' : ℕ) (pc : ThreadPc) (s : MigSys) :
    c' = c ∧ (s.setThread c pc).thread c' = pc ∨
      c' ≠ c ∧ (s.setThread c pc).thread c' = s.thread c' := by
  by_cases h : c' = c
  · subst h
    exact .inl ⟨rfl, Function.update_self ..⟩
  · exact .inr ⟨h, Function.update_of_ne h ..⟩

/-- A request is at one CPU, and its caller has no other. -/
theorem ReqInv.eq_of_caller (h : s.ReqInv) {req req' : MigrationReq} {c c' : ℕ}
    (hreq : req ∈ s.pend c) (hreq' : req' ∈ s.pend c') (hcaller : req'.caller = req.caller) :
    req' = req ∧ c' = c := by
  have hasks := ((h.pend_iff c req).mp hreq).1
  have hasks' := ((h.pend_iff c' req').mp hreq').1
  rw [hcaller] at hasks'
  obtain ⟨htask, hc⟩ := hasks'.eq hasks
  cases req
  cases req'
  simp only at hcaller htask
  exact ⟨by rw [hcaller, htask], hc⟩

/-- A step that leaves the lists alone. -/
theorem ReqInv.congr (h : s.ReqInv) (hpend : ∀ c, s'.pend c = s.pend c)
    (hpc : ∀ t p c, (s'.pc t).Asks p c ∧ s'.sem t = 0 ↔ (s.pc t).Asks p c ∧ s.sem t = 0) :
    s'.ReqInv := by
  refine ⟨fun c req => ?_, fun c => ?_⟩
  · rw [hpend, hpc]
    exact h.pend_iff c req
  · rw [hpend]
    exact h.nodup c

/-- A task goes on, and has no request before or after. -/
theorem ReqInv.goto (h : s.ReqInv) (hbefore : ∀ p c, ¬(s.pc t).Asks p c)
    (hafter : ∀ p c, ¬pc.Asks p c) : (s.goto t pc).ReqInv := by
  refine h.congr (fun _ => rfl) fun t' p c => ?_
  rcases goto_pc_cases t t' pc s with ⟨rfl, hat⟩ | ⟨-, hat⟩
  · exact iff_of_false (fun ha => hafter p c (hat ▸ ha.1)) fun ha => hbefore p c ha.1
  · rw [hat]
    exact Iff.rfl

theorem ReqInv.modify (h : s.ReqInv) (p : TaskId) (f : MigTask → MigTask) : (s.modify p f).ReqInv :=
  ⟨h.pend_iff, h.nodup⟩

/-- `list_add(&req.list, &rq->migration_queue)` -/
theorem ReqInv.request (h : s.ReqInv) (hpc : ∀ q c, ¬(s.pc caller).Asks q c) (p : TaskId) (rq : ℕ) :
    ({ s with
      sem := Function.update s.sem caller 0
      migrationQueue := Function.update s.migrationQueue rq
        (⟨caller, p⟩ :: s.migrationQueue rq) }.goto caller (.requested p rq)).ReqInv := by
  set s' : MigSys := { s with
    sem := Function.update s.sem caller 0
    migrationQueue := Function.update s.migrationQueue rq
      (⟨caller, p⟩ :: s.migrationQueue rq) }.goto caller (.requested p rq) with hs'
  have hpend : ∀ c, (s'.pend c).Perm (if c = rq then ⟨caller, p⟩ :: s.pend c else s.pend c) := by
    intro c
    by_cases hc : c = rq
    · subst hc
      rw [if_pos rfl]
      show ((s.thread c).req ++ Function.update s.migrationQueue c _ c).Perm _
      rw [Function.update_self]
      exact List.perm_middle
    · rw [if_neg hc]
      show ((s.thread c).req ++ Function.update s.migrationQueue rq _ c).Perm _
      rw [Function.update_of_ne hc]
      exact List.Perm.refl _
  -- the caller has one request at most
  have hnew : ∀ c task, ⟨caller, task⟩ ∉ s.pend c := fun c task hmem =>
    hpc task c ((h.pend_iff c _).mp hmem).1
  refine ⟨fun c req => ?_, fun c => (hpend c).nodup_iff.mpr ?_⟩
  · rw [(hpend c).mem_iff]
    by_cases hcaller : req.caller = caller
    · have hasks : (s'.pc req.caller).Asks req.task c ∧ s'.sem req.caller = 0 ↔
          p = req.task ∧ rq = c := by
        have hpc' : s'.pc caller = .requested p rq := goto_pc_self ..
        have hsem : s'.sem caller = 0 := Function.update_self ..
        rw [hcaller, hpc', hsem]
        exact and_iff_left rfl
      rw [hasks]
      obtain ⟨_, task⟩ := req
      obtain rfl : _ = caller := hcaller
      split
      · next hc =>
        rw [List.mem_cons, or_iff_left (hnew c task)]
        simp only [MigrationReq.mk.injEq, true_and]
        exact ⟨fun htask => ⟨htask.symm, hc.symm⟩, fun htask => htask.1.symm⟩
      · next hc => exact iff_of_false (hnew c task) fun htask => hc htask.2.symm
    · have hpc' : s'.pc req.caller = s.pc req.caller := goto_pc_of_ne hcaller ..
      have hsem : s'.sem req.caller = s.sem req.caller := Function.update_of_ne hcaller ..
      rw [hpc', hsem, ← h.pend_iff]
      split
      · rw [List.mem_cons, or_iff_right]
        rintro rfl
        exact hcaller rfl
      · exact Iff.rfl
  · split
    · exact List.nodup_cons.mpr ⟨hnew c p, h.nodup c⟩
    · exact h.nodup c

/-- The migration thread goes on, with the requests that it has. -/
theorem ReqInv.setThread (h : s.ReqInv) {pc : ThreadPc} (hreq : pc.req = (s.thread c).req) :
    (s.setThread c pc).ReqInv := by
  refine h.congr (fun c' => ?_) fun _ _ _ => Iff.rfl
  show ((s.setThread c pc).thread c').req ++ _ = _
  rcases setThread_cases c c' pc s with ⟨rfl, hat⟩ | ⟨-, hat⟩
  · rw [hat, hreq]
    rfl
  · rw [hat]
    rfl

/-- `list_del_init(head->next)` -/
theorem ReqInv.take (h : s.ReqInv) {rest : List MigrationReq} (hthread : s.thread c = .loop)
    (hqueue : s.migrationQueue c = req :: rest) :
    ({ s with migrationQueue := Function.update s.migrationQueue c rest }.setThread c
      (.took req)).ReqInv := by
  refine h.congr (fun c' => ?_) fun _ _ _ => Iff.rfl
  by_cases hc : c' = c
  · subst hc
    show (Function.update s.thread c' _ c').req ++ Function.update s.migrationQueue c' rest c' = _
    rw [Function.update_self, Function.update_self, pend, hthread, hqueue]
    rfl
  · show (Function.update s.thread c _ c').req ++ Function.update s.migrationQueue c rest c' = _
    rw [Function.update_of_ne hc, Function.update_of_ne hc]
    rfl

/-- `up(&req->sem)` -/
theorem ReqInv.answer (h : s.ReqInv) (hthread : s.thread c = .moved req) :
    ((s.up req.caller).setThread c .loop).ReqInv := by
  set s' := (s.up req.caller).setThread c .loop with hs'
  have hmine : s.pend c = req :: s.migrationQueue c := by
    rw [pend, hthread]
    rfl
  have hreq : req ∈ s.pend c := hmine ▸ List.mem_cons_self
  have hnodup := hmine ▸ h.nodup c
  -- only this request is gone, from this list
  have hmem : ∀ c' req', req' ∈ s'.pend c' ↔ req' ∈ s.pend c' ∧ req' ≠ req := by
    intro c' req'
    by_cases hc : c' = c
    · subst hc
      have hpend : s'.pend c' = s.migrationQueue c' := by
        show (Function.update s.thread c' .loop c').req ++ s.migrationQueue c' = _
        rw [Function.update_self]
        rfl
      rw [hpend, hmine, List.mem_cons]
      constructor
      · intro hq
        refine ⟨.inr hq, ?_⟩
        rintro rfl
        exact (List.nodup_cons.mp hnodup).1 hq
      · rintro ⟨hq, hne⟩
        exact hq.resolve_left hne
    · have hpend : s'.pend c' = s.pend c' := by
        show (Function.update s.thread c .loop c').req ++ s.migrationQueue c' = _
        rw [Function.update_of_ne hc]
        rfl
      rw [hpend, iff_self_and]
      rintro hq rfl
      exact hc (h.eq_of_caller hreq hq rfl).2
  refine ⟨fun c' req' => ?_, fun c' => ?_⟩
  · rw [hmem]
    by_cases hcaller : req'.caller = req.caller
    · have hsem : s'.sem req'.caller = s.sem req.caller + 1 := by
        rw [hcaller]
        exact Function.update_self ..
      rw [hsem]
      refine iff_of_false ?_ fun hasks => Nat.succ_ne_zero _ hasks.2
      rintro ⟨hq, hne⟩
      exact hne (h.eq_of_caller hreq hq hcaller).1
    · have hsem : s'.sem req'.caller = s.sem req'.caller := Function.update_of_ne hcaller ..
      rw [hsem, h.pend_iff, and_iff_left]
      · exact Iff.rfl
      · rintro rfl
        exact hcaller rfl
  · by_cases hc : c' = c
    · subst hc
      show (Function.update s.thread c' .loop c').req ++ s.migrationQueue c' |>.Nodup
      rw [Function.update_self]
      exact (List.nodup_cons.mp hnodup).2
    · show (Function.update s.thread c .loop c').req ++ s.migrationQueue c' |>.Nodup
      rw [Function.update_of_ne hc]
      exact h.nodup c'

/-! ## What the functions do -/

/-- A round of `try_to_wake_up` does nothing, queues the task, or moves it to this CPU. -/
theorem tryToWakeUp_cases (c : ℕ) (p : TaskId) (sync : Bool) (s : MigSys) :
    s.tryToWakeUp c p sync = s ∨
      s.tryToWakeUp c p sync = s.modify p (fun t => { t with queued := true }) ∨
        (s.task p).queued = false ∧ s.curr (s.task p).cpu ≠ p ∧ MaskHas (s.task p).cpusAllowed c ∧
          s.tryToWakeUp c p sync = s.modify p fun t => { t with cpu := c } := by
  unfold tryToWakeUp
  split
  · exact .inl rfl
  next hqueued =>
  split
  · next h => exact .inr (.inr ⟨Bool.eq_false_of_not_eq_true hqueued, h.2.1, h.2.2.2, rfl⟩)
  · exact .inr (.inl rfl)

/-- Only a caller with `CAP_SYS_NICE` adds CPUs to `cpus_allowed_mask`, and the mask that
`set_cpus_allowed` gets is a part of it. -/
theorem sysSchedSetaffinity_cases (c : ℕ) (p : TaskId) (userMask : UInt32) (s : MigSys) :
    ∃ s₁, (s₁ = s ∨ (s.task (s.curr c)).capSysNice = true ∧ s₁ = s.modify p fun t =>
        { t with cpusAllowedMask := t.cpusAllowedMask ||| (userMask &&& s.cpuOnlineMap) }) ∧
      (s.sysSchedSetaffinity c p userMask = s₁ ∨ ∃ newMask, newMask ≠ 0 ∧
        (∀ cpu, MaskHas newMask cpu → MaskHas s.cpuOnlineMap cpu ∧
          MaskHas (s₁.task p).cpusAllowedMask cpu) ∧
        s.sysSchedSetaffinity c p userMask = s₁.goto (s.curr c) (.setting p newMask)) := by
  unfold sysSchedSetaffinity
  by_cases hzero : userMask &&& s.cpuOnlineMap = 0
  · exact ⟨s, .inl rfl, .inl (if_pos hzero)⟩
  simp only [if_neg hzero]
  cases hcap : (s.task (s.curr c)).capSysNice with
  | true =>
    refine ⟨_, .inr ⟨rfl, rfl⟩, .inr ⟨userMask &&& s.cpuOnlineMap, hzero, fun cpu hhas => ?_, ?_⟩⟩
    · rw [modify_task_self, maskHas_or]
      exact ⟨(maskHas_and.mp hhas).2, .inr hhas⟩
    · simp only [if_true, if_neg hzero, Bool.true_eq_false, and_false, if_false]
      rfl
  | false =>
    refine ⟨s, .inl rfl, ?_⟩
    simp only [Bool.false_eq_true, if_false]
    split
    · exact .inl rfl
    next hempty =>
    split
    · exact .inl rfl
    · refine .inr ⟨_, hempty, fun cpu hhas => ?_, rfl⟩
      obtain ⟨hnew, hmask⟩ := maskHas_and.mp hhas
      exact ⟨(maskHas_and.mp hnew).2, hmask⟩

/-- `set_cpus_allowed`: the task may stay where it is, or nobody runs or queues it, or it is left to the
migration thread. -/
theorem setCpusAllowed_cases {newMask : UInt32} (hpc : s.pc (s.curr c) = .setting p newMask) :
    let mask := newMask &&& s.cpuOnlineMap
    let s₁ := s.modify p fun t => { t with cpusAllowed := mask }
    let rq := (s.task p).cpu
    mask = 0 ∧ s.setCpusAllowed c = s ∨ mask ≠ 0 ∧
      (MaskHas mask rq ∧ s.setCpusAllowed c = s₁.goto (s.curr c) .outside ∨
        ¬MaskHas mask rq ∧ (s.task p).queued = false ∧ p ≠ s.curr rq ∧ s.setCpusAllowed c =
          (s₁.modify p fun t => { t with cpu := ffs t.cpusAllowed }).goto (s.curr c) .outside ∨
        ¬MaskHas mask rq ∧ ((s.task p).queued = true ∨ p = s.curr rq) ∧ s.setCpusAllowed c =
          { s₁ with
            sem := Function.update s.sem (s.curr c) 0
            migrationQueue := Function.update s.migrationQueue rq
              (⟨s.curr c, p⟩ :: s.migrationQueue rq) }.goto (s.curr c) (.requested p rq)) := by
  intro mask s₁ rq
  unfold setCpusAllowed
  simp only [hpc]
  by_cases hzero : newMask &&& s.cpuOnlineMap = 0
  · exact .inl ⟨hzero, if_pos hzero⟩
  refine .inr ⟨hzero, ?_⟩
  rw [if_neg hzero]
  have hqueued : (s₁.task p).queued = (s.task p).queued := by
    show (Function.update s.task p _ p).queued = _
    rw [Function.update_self]
  by_cases hhas : MaskHas mask rq
  · exact .inl ⟨hhas, if_pos hhas⟩
  rw [if_neg hhas]
  by_cases hidle : (s₁.task p).queued = false ∧ p ≠ s.curr rq
  · exact .inr (.inl ⟨hhas, hqueued ▸ hidle.1, hidle.2, if_pos hidle⟩)
  · refine .inr (.inr ⟨hhas, ?_, if_neg hidle⟩)
    rw [hqueued] at hidle
    by_contra hnot
    rw [not_or, Bool.not_eq_true] at hnot
    exact hidle hnot

/-! ## The invariant -/

/-- The child that task `t` is making. -/
structure Embryo (s : MigSys) (t child : TaskId) : Prop where
  ordinary : s.Ordinary child
  idle : (s.task child).queued = false
  asleep : ∀ c, s.curr c ≠ child
  outside : s.pc child = .outside
  unique : ∀ t', s.pc t' = .forking child → t' = t
  unasked : ∀ t' rq, ¬(s.pc t').Asks child rq

structure MigInv (s : MigSys) : Prop where
  req : s.ReqInv
  embryo : ∀ t child, s.pc t = .forking child → s.Embryo t child
  curr_cpu : ∀ c, (s.task (s.curr c)).cpu = c
  idle_cpu : ∀ c, (s.task (s.idle c)).cpu = c
  thread_cpu : ∀ c, (s.task (s.migrationThread c)).cpu = c
  running : ∀ c, s.Ordinary (s.curr c) → (s.task (s.curr c)).queued = true
  inside : ∀ t, s.pc t ≠ .outside → s.Ordinary t
  setting : ∀ t p newMask, s.pc t = .setting p newMask → s.Ordinary p
  asked : ∀ t p rq, (s.pc t).Asks p rq → s.Ordinary p
  allowed : ∀ p, (s.task p).cpusAllowed ≠ 0
  busy : ∀ t, (s.pc t).Busy → s.curr (s.task t).cpu = t
  works : ∀ c, (s.thread c).req ≠ [] → s.curr c = s.migrationThread c
  noticed : ∀ c, s.migrationQueue c ≠ [] →
    s.thread c ≠ .sleeps ∨ ∃ t p, s.pc t = .requested p c
  woken : ∀ t p rq, s.pc t = .waits p rq → s.sem t ≠ 0 → (s.task t).queued = true
  finite : {t | s.pc t ≠ .outside}.Finite

namespace MigInv

theorem not_running (h : s.MigInv) (hp : s.curr (s.task p).cpu ≠ p) (c : ℕ) : s.curr c ≠ p := by
  rintro rfl
  exact hp (congrArg s.curr (h.curr_cpu c))

/-- One task is changed: it is not moved while it runs, and not queued while it is being made. -/
theorem modify (h : s.MigInv)
    (hcpu : (f (s.task p)).cpu = (s.task p).cpu ∨ s.Ordinary p ∧ ∀ c, s.curr c ≠ p)
    (hqueued : (f (s.task p)).queued = (s.task p).queued ∨
      (f (s.task p)).queued = true ∧ ∀ t, s.pc t ≠ .forking p)
    (hallowed : (f (s.task p)).cpusAllowed ≠ 0) : (s.modify p f).MigInv := by
  have hcpu' : ∀ q, (¬s.Ordinary q ∨ ∃ c, s.curr c = q) →
      ((s.modify p f).task q).cpu = (s.task q).cpu := by
    intro q hq
    rcases modify_task_cases p q f s with ⟨rfl, hat⟩ | ⟨-, hat⟩
    · rw [hat]
      refine hcpu.resolve_right fun hmoves => ?_
      rcases hq with hq | ⟨c, hq⟩
      · exact hq hmoves.1
      · exact hmoves.2 c hq
    · rw [hat]
  have hup : ∀ q, (s.task q).queued = true → ((s.modify p f).task q).queued = true := by
    intro q hq
    rcases modify_task_cases p q f s with ⟨rfl, hat⟩ | ⟨-, hat⟩
    · rw [hat]
      rcases hqueued with hsame | htrue
      · rw [hsame, hq]
      · exact htrue.1
    · rw [hat, hq]
  refine { h with
    req := h.req.modify p f
    embryo := fun t child hfork => ?embryo
    curr_cpu := fun c => (hcpu' _ (.inr ⟨c, rfl⟩)).trans (h.curr_cpu c)
    idle_cpu := fun c => (hcpu' _ (.inl fun hord => (hord c).1 rfl)).trans (h.idle_cpu c)
    thread_cpu := fun c => (hcpu' _ (.inl fun hord => (hord c).2 rfl)).trans (h.thread_cpu c)
    running := fun c hord => hup _ (h.running c hord)
    allowed := fun q => ?allowed
    busy := fun t hbusy => ?busy
    woken := fun t q rq hwaits hsem => hup t (h.woken t q rq hwaits hsem) }
  case embryo =>
    have hchild := h.embryo t child hfork
    refine ⟨hchild.ordinary, ?_, hchild.asleep, hchild.outside, hchild.unique, hchild.unasked⟩
    rcases modify_task_cases p child f s with ⟨rfl, hat⟩ | ⟨-, hat⟩
    · rw [hat, hqueued.resolve_right fun hno => hno.2 t hfork]
      exact hchild.idle
    · rw [hat]
      exact hchild.idle
  case allowed =>
    rcases modify_task_cases p q f s with ⟨rfl, hat⟩ | ⟨-, hat⟩
    · rwa [hat]
    · rw [hat]
      exact h.allowed q
  case busy =>
    -- it runs, so it is not moved
    have hruns := h.busy t hbusy
    rw [hcpu' t (.inr ⟨_, hruns⟩)]
    exact hruns

/-- One task more is somewhere at most. -/
theorem finite_goto (h : {t | s.pc t ≠ .outside}.Finite) :
    {t' | (s.goto t pc).pc t' ≠ .outside}.Finite := by
  refine (h.insert t).subset fun t' hin => ?_
  rcases goto_pc_cases t t' pc s with ⟨rfl, -⟩ | ⟨-, hat⟩
  · exact Set.mem_insert ..
  · right
    show s.pc t' ≠ .outside
    rw [← hat]
    exact hin

/-- A task goes on, not to the making of a child. -/
theorem goto (h : s.MigInv) (hreq : (s.goto t pc).ReqInv) (hfork : ∀ child, pc ≠ .forking child)
    (hinside : pc ≠ .outside → s.Ordinary t ∧ ∀ t', s.pc t' ≠ .forking t)
    (hsetting : ∀ p newMask, pc = .setting p newMask → s.Ordinary p)
    (hasked : ∀ p rq, pc.Asks p rq → s.Ordinary p ∧ ∀ t', s.pc t' ≠ .forking p)
    (hbusy : pc.Busy → s.curr (s.task t).cpu = t)
    (hnoticed : ∀ p rq, s.pc t = .requested p rq → s.thread rq ≠ .sleeps)
    (hwoken : ∀ p rq, pc = .waits p rq → s.sem t ≠ 0 → (s.task t).queued = true) :
    (s.goto t pc).MigInv := by
  refine { h with
    req := hreq
    embryo := fun t' child hmakes => ?embryo
    inside := fun t' hin => ?inside
    setting := fun t' p newMask hset => ?setting
    asked := fun t' p rq hask => ?asked
    busy := fun t' hb => ?busy
    noticed := fun c hqueue => ?noticed
    woken := fun t' p rq hwaits hsem => ?woken
    finite := finite_goto h.finite }
  case embryo =>
    rcases goto_pc_cases t t' pc s with ⟨rfl, hat⟩ | ⟨-, hat⟩
    · exact absurd (hat.symm.trans hmakes) (hfork child)
    rw [hat] at hmakes
    have hchild := h.embryo t' child hmakes
    refine ⟨hchild.ordinary, hchild.idle, hchild.asleep, ?_, fun t₁ ht₁ => ?_, fun t₁ rq hask => ?_⟩
    · rcases goto_pc_cases t child pc s with ⟨rfl, hat⟩ | ⟨-, hat⟩
      · rw [hat]
        by_contra hin
        exact (hinside hin).2 t' hmakes
      · rw [hat]
        exact hchild.outside
    · rcases goto_pc_cases t t₁ pc s with ⟨rfl, hat⟩ | ⟨-, hat⟩
      · exact absurd (hat.symm.trans ht₁) (hfork child)
      · exact hchild.unique t₁ (hat ▸ ht₁)
    · rcases goto_pc_cases t t₁ pc s with ⟨rfl, hat⟩ | ⟨-, hat⟩
      · exact (hasked child rq (hat ▸ hask)).2 t' hmakes
      · exact hchild.unasked t₁ rq (hat ▸ hask)
  case inside =>
    rcases goto_pc_cases t t' pc s with ⟨rfl, hat⟩ | ⟨-, hat⟩
    · exact (hinside (hat ▸ hin)).1
    · exact h.inside t' (hat ▸ hin)
  case setting =>
    rcases goto_pc_cases t t' pc s with ⟨rfl, hat⟩ | ⟨-, hat⟩
    · exact hsetting p newMask (hat ▸ hset)
    · exact h.setting t' p newMask (hat ▸ hset)
  case asked =>
    rcases goto_pc_cases t t' pc s with ⟨rfl, hat⟩ | ⟨-, hat⟩
    · exact (hasked p rq (hat ▸ hask)).1
    · exact h.asked t' p rq (hat ▸ hask)
  case busy =>
    rcases goto_pc_cases t t' pc s with ⟨rfl, hat⟩ | ⟨-, hat⟩
    · exact hbusy (hat ▸ hb)
    · exact h.busy t' (hat ▸ hb)
  case noticed =>
    rcases h.noticed c hqueue with hawake | ⟨t', p, ht'⟩
    · exact .inl hawake
    · rcases goto_pc_cases t t' pc s with ⟨rfl, -⟩ | ⟨-, hat⟩
      · -- the task that was about to wake the thread has done so
        exact .inl (hnoticed p c ht')
      · exact .inr ⟨t', p, hat.trans ht'⟩
  case woken =>
    rcases goto_pc_cases t t' pc s with ⟨rfl, hat⟩ | ⟨-, hat⟩
    · exact hwoken p rq (hat ▸ hwaits) hsem
    · exact h.woken t' p rq (hat ▸ hwaits) hsem

/-- A task returns. -/
theorem leave (h : s.MigInv) (hreq : (s.goto t .outside).ReqInv)
    (hpc : ∀ p rq, s.pc t ≠ .requested p rq) : (s.goto t .outside).MigInv :=
  h.goto hreq (fun _ => TaskPc.noConfusion) (fun hin => absurd rfl hin)
    (fun _ _ => TaskPc.noConfusion) (fun _ _ hask => hask.elim) (fun hbusy => hbusy.elim)
    (fun p rq hreq => absurd hreq (hpc p rq)) fun _ _ => TaskPc.noConfusion

/-- The lists and the migration threads change. -/
theorem threads (h : s.MigInv) {queue : ℕ → List MigrationReq} {thread : ℕ → ThreadPc}
    (hreq : { s with migrationQueue := queue, thread := thread }.ReqInv)
    (hworks : ∀ c, (thread c).req ≠ [] → s.curr c = s.migrationThread c)
    (hnoticed : ∀ c, queue c ≠ [] → thread c ≠ .sleeps ∨ ∃ t p, s.pc t = .requested p c) :
    { s with migrationQueue := queue, thread := thread }.MigInv where
  req := hreq
  embryo t child hfork :=
    let hchild := h.embryo t child hfork
    ⟨hchild.ordinary, hchild.idle, hchild.asleep, hchild.outside, hchild.unique, hchild.unasked⟩
  curr_cpu := h.curr_cpu
  idle_cpu := h.idle_cpu
  thread_cpu := h.thread_cpu
  running := h.running
  inside := h.inside
  setting := h.setting
  asked := h.asked
  allowed := h.allowed
  busy := h.busy
  works := hworks
  noticed := hnoticed
  woken := h.woken
  finite := h.finite

/-- A task that is in one of the functions is not being made. -/
theorem not_forking (h : s.MigInv) (hin : s.pc t ≠ .outside) (t' : TaskId) : s.pc t' ≠ .forking t :=
  fun hfork => hin (h.embryo t' t hfork).outside

end MigInv
end MigSys
end ShortSched
