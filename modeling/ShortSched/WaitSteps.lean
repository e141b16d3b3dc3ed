import ShortSched.WaitInvariant

/-!
# Steps of the machine with wait queues

One lemma for each piece of a function that waits, and from them that every step keeps `WaitInv`.
-/

namespace ShortSched

open General Sys

namespace WaitSys

variable {w w' : WaitSys} {x : CompletionPtr} {q : ℕ} {place : Place} {state : TaskState}

@[simp] theorem here_goto (place : Place) (w : WaitSys) : (w.goto place).here = place :=
  Function.update_self ..

theorem place_goto_of_ne {t : TaskId} (h : t ≠ w.curr) (place : Place) :
    (w.goto place).place t = w.place t :=
  Function.update_of_ne h ..

@[simp] theorem completion_self (x : CompletionPtr) (c : Completion) (w : WaitSys) :
    (w.setCompletion x c).completion x = c :=
  Function.update_self ..

theorem completion_of_ne {y : CompletionPtr} (h : y ≠ x) (c : Completion) (w : WaitSys) :
    (w.setCompletion x c).completion y = w.completion y :=
  Function.update_of_ne h ..

namespace WaitInv

/-! ## Moves that leave the queues alone -/

/-- The entries of `current` are right at a place that has the same ones. -/
theorem entries_iff (h : WaitInv w) (hcompletion : ∀ x, place.OnCompletion x ↔ w.here.OnCompletion x)
    (hqueue : ∀ q, place.OnQueue q ↔ w.here.OnQueue q) :
    (∀ x wait, wait.task = w.curr → (wait ∈ (w.completion x).wait.taskList ↔
      wait.exclusive = true ∧ place.OnCompletion x)) ∧
    ∀ q wait, wait.task = w.curr → (wait ∈ (w.queue q).taskList ↔
      wait.exclusive = false ∧ place.OnQueue q) := by
  constructor
  · intro x wait hwait
    rw [h.onCompletion, hcompletion, hwait]
  · intro q wait hwait
    rw [h.onQueue, hqueue, hwait]

theorem waiting_here (h : WaitInv w) (hin : w.here.Inside) : Waiting w.sys.current.state :=
  h.waiting _ hin

/-- `current` goes on without a change of its state. -/
theorem goto (h : WaitInv w) (hprocess : Op.InProcess w.sys)
    (hwaiting : place.Inside → Waiting w.sys.current.state)
    (howner : ∀ p phase, place = .completion (.vfork p) phase → w.curr = p)
    (hcompletion : ∀ x, place.OnCompletion x ↔ w.here.OnCompletion x)
    (hqueue : ∀ q, place.OnQueue q ↔ w.here.OnQueue q) : WaitInv (w.goto place) := by
  obtain ⟨hoff, hoff'⟩ := h.entries_iff hcompletion hqueue
  have hmoves : Moves place w (w.goto place) :=
    ⟨rfl, rfl, rfl, rfl, rfl, fun _ _ => rfl, fun _ _ _ => Iff.rfl, fun _ _ _ => Iff.rfl⟩
  exact h.move hmoves h.fork h.sleep hprocess hwaiting howner hoff hoff' h.completionNodup
    h.queueNodup h.served

/-- `set_current_state` is a step of the scheduler's machine. -/
theorem setCurrentState [Param] (h : WaitInv w) (hprocess : Op.InProcess w.sys)
    (hstate : state ≠ .zombie) :
    ForkInv (w.setCurrentState state).sys ∧ (w.setCurrentState state).sys.SleepInv := by
  have hstep : Step w.sys (.setCurrentState state) (w.setCurrentState state).sys :=
    ⟨⟨hprocess, hstate⟩, rfl⟩
  exact ⟨h.fork.step hstep trivial,
    h.sleep.step h.fork hstep ⟨trivial, fun hc => absurd hc Bool.false_ne_true⟩⟩

/-- `current` sets its own state and no other. -/
theorem state_setCurrentState (state : TaskState) (w : WaitSys) :
    ((w.setCurrentState state).sys.task w.curr).state = state ∧
      ∀ t, t ≠ w.curr →
        ((w.setCurrentState state).sys.task t).state = (w.sys.task t).state := by
  constructor
  · rw [WaitSys.setCurrentState, modify_task, Function.update_self]
  · intro t ht
    rw [WaitSys.setCurrentState, modify_task, Function.update_of_ne ht]

/-- `current` sets its state and goes on. If it waits for a completion, nothing is done. -/
theorem setStateGoto [Param] (h : WaitInv w) (hprocess : Op.InProcess w.sys)
    (hstate : Waiting state) (howner : ∀ p phase, place = .completion (.vfork p) phase → w.curr = p)
    (hcompletion : ∀ x, place.OnCompletion x ↔ w.here.OnCompletion x)
    (hqueue : ∀ q, place.OnQueue q ↔ w.here.OnQueue q)
    (hdone : ∀ x, w.here.OnCompletion x → (w.completion x).done = 0) :
    WaitInv ((w.setCurrentState state).goto place) := by
  have hzombie : state ≠ .zombie := by
    rintro rfl
    rcases hstate with hc | hc | hc <;> cases hc
  obtain ⟨hfork, hsleep⟩ := h.setCurrentState hprocess hzombie
  obtain ⟨hself, hother⟩ := state_setCurrentState state w
  obtain ⟨hoff, hoff'⟩ := h.entries_iff hcompletion hqueue
  have hmoves : Moves place w ((w.setCurrentState state).goto place) :=
    ⟨rfl, rfl, rfl, rfl, rfl, hother, fun _ _ _ => Iff.rfl, fun _ _ _ => Iff.rfl⟩
  refine h.move hmoves hfork hsleep hprocess (fun _ => ?_) howner hoff hoff' h.completionNodup
    h.queueNodup fun x => ?_
  · show Waiting ((w.setCurrentState state).sys.task w.curr).state
    rw [hself]
    exact hstate
  · by_cases hon : w.here.OnCompletion x
    · left
      show (w.completion x).done.toNat ≤ _
      rw [hdone x hon]
      exact Nat.zero_le _
    · have hawake : (w.setCurrentState state).sys.awake (w.completion x).wait.taskList =
          w.sys.awake (w.completion x).wait.taskList := by
        apply List.countP_congr
        intro wait hwait
        have hne : wait.task ≠ w.curr := by
          intro hc
          have hplace := ((h.onCompletion x wait).mp hwait).2
          rw [hc] at hplace
          exact hon hplace
        rw [hother _ hne]
      unfold Served
      show _ ≤ (w.setCurrentState state).sys.awake _ ∨ (w.setCurrentState state).sys.awake _ = _
      rw [show ((w.setCurrentState state).goto place).completion = w.completion from rfl, hawake]
      exact h.served x

/-! ## Moves on and off a wait queue -/

/-- `current` changes its entry on a queue and goes on. -/
theorem setQueueGoto (h : WaitInv w) {head : WaitQueueHead} (hprocess : Op.InProcess w.sys)
    (hwaiting : place.Inside → Waiting w.sys.current.state)
    (howner : ∀ p phase, place = .completion (.vfork p) phase → w.curr = p)
    (hcompletion : ∀ x, place.OnCompletion x ↔ w.here.OnCompletion x)
    (hqueue : ∀ q', q' ≠ q → (place.OnQueue q' ↔ w.here.OnQueue q'))
    (hother : ∀ wait : WaitEntry, wait.task ≠ w.curr →
      (wait ∈ head.taskList ↔ wait ∈ (w.queue q).taskList))
    (hself : ∀ wait : WaitEntry, wait.task = w.curr →
      (wait ∈ head.taskList ↔ wait.exclusive = false ∧ place.OnQueue q))
    (hnodup : head.taskList.Nodup) : WaitInv ((w.setQueue q head).goto place) := by
  have hsame : ((w.setQueue q head).goto place).queue q = head := Function.update_self ..
  have hrest : ∀ q', q' ≠ q → ((w.setQueue q head).goto place).queue q' = w.queue q' :=
    fun q' hq => Function.update_of_ne hq ..
  have hmoves : Moves place w ((w.setQueue q head).goto place) := by
    refine ⟨rfl, rfl, rfl, rfl, rfl, fun _ _ => rfl, fun _ _ _ => Iff.rfl, fun q' wait hwait => ?_⟩
    by_cases hq : q' = q
    · subst hq
      rw [hsame]
      exact hother wait hwait
    · rw [hrest q' hq]
  refine h.move hmoves h.fork h.sleep hprocess hwaiting howner (fun x wait hwait => ?_)
    (fun q' wait hwait => ?_) h.completionNodup (fun q' => ?_) h.served
  · show wait ∈ (w.completion x).wait.taskList ↔ _
    rw [h.onCompletion, hcompletion, hwait]
  · by_cases hq : q' = q
    · subst hq
      rw [hsame]
      exact hself wait hwait
    · rw [hrest q' hq, h.onQueue, hqueue q' hq, hwait]
  · by_cases hq : q' = q
    · subst hq
      rw [hsame]
      exact hnodup
    · rw [hrest q' hq]
      exact h.queueNodup q'

/-- What is left of a queue without the entry of a task. -/
theorem mem_erase_entry {l : List WaitEntry} {exclusive : Bool} (hnodup : l.Nodup)
    (hexclusive : ∀ wait ∈ l, wait.exclusive = exclusive) (p : TaskId) (wait : WaitEntry) :
    wait ∈ l.erase ⟨p, exclusive⟩ ↔ wait ∈ l ∧ wait.task ≠ p := by
  rw [hnodup.mem_erase_iff, and_comm]
  refine and_congr_right fun hmem => not_congr ⟨?_, fun htask => ?_⟩
  · rintro rfl
    rfl
  · obtain ⟨task, exclusive'⟩ := wait
    exact congrArg₂ WaitEntry.mk htask (hexclusive _ hmem)

variable [WaitHeader]

/-- `current` puts its entry on a queue. -/
theorem addEntry (h : WaitInv w) (hprocess : Op.InProcess w.sys)
    (hwaiting : Waiting w.sys.current.state) (hplace : ∀ q', place.OnQueue q' ↔ q' = q)
    (hcompletion : ∀ x, ¬w.here.OnCompletion x) (hqueue : ∀ q, ¬w.here.OnQueue q) :
    WaitInv ((w.addEntry q).goto place) := by
  have honq : place.OnQueue q := (hplace q).mpr rfl
  have hadd : ((w.queue q).addWaitQueue ⟨w.curr, false⟩).taskList =
      ⟨w.curr, false⟩ :: (w.queue q).taskList := WaitHeader.addWaitQueue_eq _ _
  have hnot : ∀ exclusive, (⟨w.curr, exclusive⟩ : WaitEntry) ∉ (w.queue q).taskList :=
    fun _ hc => hqueue q ((h.onQueue q _).mp hc).2
  refine h.setQueueGoto hprocess (fun _ => hwaiting) (fun p phase hc => ?_) (fun x => ?_)
    (fun q' hq => ?_) (fun wait hwait => ?_) (fun wait hwait => ?_) ?_
  · rw [hc] at honq
    exact honq.elim
  · exact iff_of_false honq.not_onCompletion (hcompletion x)
  · exact iff_of_false (mt (hplace q').mp hq) (hqueue q')
  · rw [hadd, List.mem_cons]
    refine or_iff_right ?_
    rintro rfl
    exact hwait rfl
  · obtain ⟨task, exclusive⟩ := wait
    obtain rfl : task = w.curr := hwait
    rw [hadd, List.mem_cons, or_iff_left (hnot exclusive), WaitEntry.mk.injEq]
    exact ⟨fun hc => ⟨hc.2, honq⟩, fun hc => ⟨rfl, hc.1⟩⟩
  · rw [hadd]
    exact List.nodup_cons.mpr ⟨hnot false, h.queueNodup q⟩

/-- `current` takes its entry off a queue. -/
theorem removeEntry (h : WaitInv w) (hprocess : Op.InProcess w.sys)
    (hhere : ∀ q', w.here.OnQueue q' ↔ q' = q) : WaitInv ((w.removeEntry q).goto .outside) := by
  have honq : w.here.OnQueue q := (hhere q).mpr rfl
  have hremove : ((w.queue q).removeWaitQueue ⟨w.curr, false⟩).taskList =
      (w.queue q).taskList.erase ⟨w.curr, false⟩ := WaitHeader.removeWaitQueue_eq _ _
  have hmem := mem_erase_entry (h.queueNodup q) (fun wait hc => ((h.onQueue q wait).mp hc).1) w.curr
  refine h.setQueueGoto hprocess (fun hc => hc.elim) (fun p phase hc => nomatch hc) (fun x => ?_)
    (fun q' hq => ?_) (fun wait hwait => ?_) (fun wait hwait => ?_) ?_
  · exact iff_of_false id honq.not_onCompletion
  · exact iff_of_false id (mt (hhere q').mp hq)
  · rw [hremove, hmem]
    exact and_iff_left hwait
  · rw [hremove, hmem]
    exact iff_of_false (fun hc => hc.2 hwait) fun hc => hc.2
  · rw [hremove]
    exact (h.queueNodup q).erase _

/-! ## `wait_for_completion` -/

omit [WaitHeader] in
/-- `current` changes its entry on a completion and goes on. -/
theorem setCompletionGoto (h : WaitInv w) {c : Completion} {s : Sys} (hfork : ForkInv s)
    (hsleep : s.SleepInv) (hrq : s.rq = w.sys.rq) (hlists : SameLists w.sys s)
    (hstate : ∀ t, t ≠ w.curr → (s.task t).state = (w.sys.task t).state)
    (hprocess : Op.InProcess w.sys) (hwaiting : place.Inside → Waiting (s.task w.curr).state)
    (howner : ∀ p phase, place = .completion (.vfork p) phase → w.curr = p)
    (hqueue : ∀ q, place.OnQueue q ↔ w.here.OnQueue q)
    (hcompletion : ∀ y, y ≠ x → (place.OnCompletion y ↔ w.here.OnCompletion y))
    (hthere : ∀ y, y ≠ x → ¬w.here.OnCompletion y)
    (hother : ∀ wait : WaitEntry, wait.task ≠ w.curr →
      (wait ∈ c.wait.taskList ↔ wait ∈ (w.completion x).wait.taskList))
    (hself : ∀ wait : WaitEntry, wait.task = w.curr →
      (wait ∈ c.wait.taskList ↔ wait.exclusive = true ∧ place.OnCompletion x))
    (hnodup : c.wait.taskList.Nodup)
    (hserved : c.done.toNat ≤ s.awake c.wait.taskList ∨
      s.awake c.wait.taskList = c.wait.taskList.length) :
    WaitInv ({ w.setCompletion x c with sys := s }.goto place) := by
  set w' := { w.setCompletion x c with sys := s }.goto place with hw'
  have hcurr : s.rq.curr = w.curr := by rw [hrq]
  have hplace : w'.place = Function.update w.place w.curr place := by
    rw [← hcurr]
    rfl
  have hsame : w'.completion x = c := completion_self x c w
  have hrest : ∀ y, y ≠ x → w'.completion y = w.completion y :=
    fun y hy => completion_of_ne hy c w
  have hmoves : Moves place w w' := by
    refine ⟨hplace, hcurr, by rw [hw', ← hrq]; rfl, hlists.tasklist, hlists.forking, hstate,
      fun y wait hwait => ?_, fun _ _ _ => Iff.rfl⟩
    by_cases hy : y = x
    · subst hy
      rw [hsame]
      exact hother wait hwait
    · rw [hrest y hy]
  refine h.move hmoves hfork hsleep hprocess hwaiting howner (fun y wait hwait => ?_)
    (fun q wait hwait => ?_) (fun y => ?_) h.queueNodup fun y => ?_
  · by_cases hy : y = x
    · subst hy
      rw [hsame]
      exact hself wait hwait
    · rw [hrest y hy, h.onCompletion, hcompletion y hy, hwait]
  · show wait ∈ (w.queue q).taskList ↔ _
    rw [h.onQueue, hqueue, hwait]
  · by_cases hy : y = x
    · subst hy
      rw [hsame]
      exact hnodup
    · rw [hrest y hy]
      exact h.completionNodup y
  · unfold Served
    by_cases hy : y = x
    · subst hy
      rw [hsame]
      exact hserved
    · -- `current` does not wait for another completion
      have hawake : s.awake (w.completion y).wait.taskList =
          w.sys.awake (w.completion y).wait.taskList := by
        apply List.countP_congr
        intro wait hwait
        have hne : wait.task ≠ w.curr := by
          intro hc
          have hplace := ((h.onCompletion y wait).mp hwait).2
          rw [hc] at hplace
          exact hthere y hy hplace
        rw [hstate _ hne]
      rw [hrest y hy]
      show _ ≤ s.awake _ ∨ s.awake _ = _
      rw [hawake]
      exact h.served y

omit [WaitHeader] in
theorem after_outside (x : CompletionPtr) : ¬x.after.Inside ∧ (∀ y, ¬x.after.OnCompletion y) ∧
    (∀ q, ¬x.after.OnQueue q) ∧ ∀ y phase, x.after ≠ .completion y phase := by
  cases x with
  | vfork p => exact ⟨id, fun _ => id, fun _ => id, nofun⟩
  | other n => exact ⟨id, fun _ => id, fun _ => id, nofun⟩

variable [Param]

/-- The first piece of `wait_for_completion`. -/
theorem waitForCompletion (h : WaitInv w) (hhere : w.here = .completion x .call) :
    WaitInv (w.waitForCompletion x) := by
  have hprocess : Op.InProcess w.sys := h.inProcess (by rw [hhere]; nofun)
  have hnot : ∀ y, ¬w.here.OnCompletion y := fun y => by
    rw [hhere]
    exact id
  have hnotQueue : ∀ q, ¬w.here.OnQueue q := fun q => by
    rw [hhere]
    exact id
  -- the caller has no entry yet
  have hfree : ∀ exclusive, (⟨w.curr, exclusive⟩ : WaitEntry) ∉ (w.completion x).wait.taskList :=
    fun _ hc => hnot x ((h.onCompletion x _).mp hc).2
  unfold WaitSys.waitForCompletion
  dsimp only
  split
  · next hdone =>
    obtain ⟨hfork, hsleep⟩ : ForkInv (w.setCurrentState .uninterruptible).sys ∧
        (w.setCurrentState .uninterruptible).sys.SleepInv :=
      h.setCurrentState hprocess TaskState.noConfusion
    obtain ⟨hself, hother⟩ := state_setCurrentState .uninterruptible w
    have hadd : ((w.completion x).wait.addWaitQueueExclusive ⟨w.curr, false⟩).taskList =
        (w.completion x).wait.taskList ++ [⟨w.curr, true⟩] := WaitHeader.addWaitQueueTail_eq _ _
    refine h.setCompletionGoto (s := (w.setCurrentState .uninterruptible).sys) hfork hsleep rfl
      ⟨rfl, rfl⟩ hother hprocess (fun _ => ?_) (fun p phase hc => ?_) (fun q => ?_)
      (fun y hy => ?_) (fun y _ => hnot y) (fun wait hwait => ?_) (fun wait hwait => ?_) ?_ ?_
    · exact .inr (.inr hself)
    · obtain ⟨rfl, -⟩ := Place.completion.inj hc
      exact h.owner _ p _ hhere
    · exact iff_of_false id (hnotQueue q)
    · exact iff_of_false (fun hc => hy hc.symm) (hnot y)
    · dsimp only
      rw [hadd, List.mem_append, List.mem_singleton]
      refine or_iff_left ?_
      rintro rfl
      exact hwait rfl
    · obtain ⟨task, exclusive⟩ := wait
      obtain rfl : task = w.curr := hwait
      dsimp only
      rw [hadd, List.mem_append, List.mem_singleton, or_iff_right (hfree exclusive),
        WaitEntry.mk.injEq]
      exact ⟨fun hc => ⟨hc.2, rfl⟩, fun hc => ⟨rfl, hc.1⟩⟩
    · dsimp only
      rw [hadd]
      refine (h.completionNodup x).append (List.nodup_singleton _) ?_
      exact List.disjoint_singleton.mpr (hfree true)
    · left
      show (w.completion x).done.toNat ≤ _
      rw [hdone]
      exact Nat.zero_le _
  · next hdone =>
    obtain ⟨hinside, hoff, hoff', hne⟩ := after_outside x
    -- `done` is taken without a wait
    refine h.setCompletionGoto (s := w.sys) h.fork h.sleep rfl ⟨rfl, rfl⟩ (fun _ _ => rfl) hprocess
      (fun hc => absurd hc hinside) (fun p phase hc => absurd hc (hne _ _))
      (fun q => iff_of_false (hoff' q) (hnotQueue q))
      (fun y _ => iff_of_false (hoff y) (hnot y)) (fun y _ => hnot y) (fun _ _ => Iff.rfl)
      (fun wait hwait => ?_) (h.completionNodup x) ?_
    · refine iff_of_false (fun hmem => ?_) fun hc => hoff x hc.2
      obtain ⟨task, exclusive⟩ := wait
      obtain rfl : task = w.curr := hwait
      exact hfree exclusive hmem
    · refine (h.served x).imp_left fun hle => ?_
      have hpos : 1 ≤ (w.completion x).done.toNat := by
        rw [Nat.one_le_iff_ne_zero]
        exact fun hc => hdone (UInt32.toNat_inj.mp hc)
      rw [toNat_sub_one hpos]
      exact (Nat.sub_le _ _).trans hle

omit [WaitHeader] [Param] in
/-- A waiter that leaves takes one of those that run with it, at most. -/
theorem served_erase {s : Sys} {l : List WaitEntry} {wait : WaitEntry} {done : UInt32}
    (hmem : wait ∈ l) (hdone : done ≠ 0) (h : done.toNat ≤ s.awake l ∨ s.awake l = l.length) :
    (done - 1).toNat ≤ s.awake (l.erase wait) ∨
      s.awake (l.erase wait) = (l.erase wait).length := by
  have hpos : 1 ≤ done.toNat := by
    rw [Nat.one_le_iff_ne_zero]
    exact fun hc => hdone (UInt32.toNat_inj.mp hc)
  -- one waiter less is awake, at most
  have hawake : s.awake l ≤ s.awake (l.erase wait) + 1 := by
    unfold awake
    rw [(List.perm_cons_erase hmem).countP_eq, List.countP_cons]
    split <;> omega
  have hlength : (l.erase wait).length = l.length - 1 := List.length_erase_of_mem hmem
  have hle : s.awake (l.erase wait) ≤ (l.erase wait).length := List.countP_le_length
  have hnonempty : 0 < l.length := List.length_pos_of_mem hmem
  rw [toNat_sub_one hpos]
  omega

/-- The piece of `wait_for_completion` behind `schedule`. -/
theorem waitForCompletionWoken (h : WaitInv w) (hhere : w.here = .completion x .wake) :
    WaitInv (w.waitForCompletionWoken x) := by
  have hprocess : Op.InProcess w.sys := h.inProcess (by rw [hhere]; nofun)
  have hiff : ∀ y, w.here.OnCompletion y ↔ x = y := fun y => by
    rw [hhere]
    exact Iff.rfl
  have hnotQueue : ∀ q, ¬w.here.OnQueue q := fun q => by
    rw [hhere]
    exact id
  have hmem : (⟨w.curr, true⟩ : WaitEntry) ∈ (w.completion x).wait.taskList :=
    (h.onCompletion x _).mpr ⟨rfl, (hiff x).mpr rfl⟩
  unfold WaitSys.waitForCompletionWoken
  dsimp only
  split
  · next hdone =>
    refine h.setStateGoto hprocess (.inr (.inr rfl)) (fun p phase hc => ?_)
      (fun y => (hiff y).symm) (fun q => iff_of_false id (hnotQueue q)) fun y hy => ?_
    · obtain ⟨rfl, -⟩ := Place.completion.inj hc
      exact h.owner _ p _ hhere
    · rw [← (hiff y).mp hy]
      exact hdone
  · next hdone =>
    obtain ⟨hinside, hoff, hoff', hne⟩ := after_outside x
    -- the entry and one count of `done` go together
    have hremove : ((w.completion x).wait.removeWaitQueue ⟨w.curr, true⟩).taskList =
        (w.completion x).wait.taskList.erase ⟨w.curr, true⟩ := WaitHeader.removeWaitQueue_eq _ _
    -- of the entries on this completion, only that of `current` goes
    have hleft := mem_erase_entry (h.completionNodup x)
      (fun wait hc => ((h.onCompletion x wait).mp hc).1) w.curr
    refine h.setCompletionGoto (s := w.sys) h.fork h.sleep rfl ⟨rfl, rfl⟩ (fun _ _ => rfl) hprocess
      (fun hc => absurd hc hinside) (fun p phase hc => absurd hc (hne _ _))
      (fun q => iff_of_false (hoff' q) (hnotQueue q))
      (fun y hy => iff_of_false (hoff y) fun hc => hy ((hiff y).mp hc).symm)
      (fun y hy hc => hy ((hiff y).mp hc).symm) (fun wait hwait => ?_) (fun wait hwait => ?_) ?_ ?_
    · rw [hremove, hleft]
      exact and_iff_left hwait
    · rw [hremove, hleft]
      exact iff_of_false (fun hc => hc.2 hwait) fun hc => hoff x hc.2
    · rw [hremove]
      exact (h.completionNodup x).erase _
    · rw [hremove]
      exact served_erase hmem hdone (h.served x)

/-! ## Calls of `schedule` -/

omit [WaitHeader] in
/-- `current` calls `schedule` at a place where it may be switched away. -/
theorem scheduleTo (h : WaitInv (w.goto place)) (hplace : place.Parked) (hin : place.Inside)
    (hcall : w.scheduleTo place = some w') : WaitInv w' := by
  have hprocess : Op.InProcess w.sys := h.inProcess (by
    rw [here_goto]
    exact hin.ne_outside)
  obtain ⟨s, hs, rfl⟩ := Option.map_eq_some_iff.mp hcall
  have hstep : Step w.sys .schedule s := ⟨hprocess.1, hs⟩
  have hsafe : AwakeSafe w.sys .schedule := ⟨trivial, fun hc => absurd hc Bool.false_ne_true⟩
  have hlists := sameLists_schedule hs
  have hfork : ForkInv w.sys := h.fork
  have hsleep : w.sys.SleepInv := h.sleep
  refine h.sys (hfork.step hstep trivial) (hsleep.step hfork hstep hsafe) (fun t ht => ?_)
    (step_idle hstep) (.inr ⟨?_, ?_⟩) (fun hc => ?_) fun t ht => ?_
  · rw [hlists.tasklist]
    exact (h.listed t ht).1
  · rw [here_goto]
    exact hplace
  · rw [hlists.forking]
    exact hprocess.1
  · rw [hlists.forking] at hc
    exact absurd hprocess.1 hc
  · -- every pass leaves the state of the task it switches away alone, or sets it to run
    exact schedule_state hs t

/-! ## The pieces of the functions that wait -/

/-- **`current` goes on** in `sleep_on`. -/
theorem proceed_sleepOn {slept : Bool} (h : WaitInv w) (hhere : w.here = .sleepOn q slept)
    (hcall : w.proceed = some w') : WaitInv w' := by
  have hprocess : Op.InProcess w.sys := h.inProcess (by rw [hhere]; nofun)
  have hnot : ∀ x, ¬w.here.OnCompletion x := fun x => by
    rw [hhere]
    exact id
  cases slept with
  | false =>
    simp only [proceed, hhere] at hcall
    have hwaiting : Waiting w.sys.current.state := h.waiting_here (by rw [hhere]; trivial)
    have hadd : WaitInv ((w.addEntry q).goto (.sleepOn q true)) := by
      refine h.addEntry hprocess hwaiting (fun q' => eq_comm) hnot fun q' => ?_
      rw [hhere]
      exact id
    exact hadd.scheduleTo trivial trivial hcall
  | true =>
    simp only [proceed, hhere] at hcall
    obtain rfl := Option.some.inj hcall
    refine h.removeEntry hprocess fun q' => ?_
    rw [hhere]
    exact eq_comm

/-- **`current` goes on** in `wait_event`. -/
theorem proceed_event {intr : Bool} {phase : EventPhase} (h : WaitInv w)
    (hhere : w.here = .event q intr phase) (hcall : w.proceed = some w') : WaitInv w' := by
  have hprocess : Op.InProcess w.sys := h.inProcess (by rw [hhere]; nofun)
  have hwaiting : Waiting w.sys.current.state := h.waiting_here (by rw [hhere]; trivial)
  have hnot : ∀ x, ¬w.here.OnCompletion x := fun x => by
    rw [hhere]
    exact id
  -- from one place on the queue to another
  have hgo : ∀ phase', phase ≠ .add → phase' ≠ .add →
      WaitInv (w.goto (.event q intr phase')) ∧ ∀ state, Waiting state →
        WaitInv ((w.setCurrentState state).goto (.event q intr phase')) := by
    intro phase' hphase hphase'
    have hqueue : ∀ q', (Place.event q intr phase').OnQueue q' ↔ w.here.OnQueue q' := by
      intro q'
      rw [hhere]
      cases phase <;> cases phase' <;> first | exact Iff.rfl | contradiction
    have hoff : ∀ x, (Place.event q intr phase').OnCompletion x ↔ w.here.OnCompletion x :=
      fun x => iff_of_false id (hnot x)
    exact ⟨h.goto hprocess (fun _ => hwaiting) nofun hoff hqueue, fun state hstate =>
      h.setStateGoto hprocess hstate nofun hoff hqueue fun x hx => absurd hx (hnot x)⟩
  cases phase with
  | add =>
    simp only [proceed, hhere] at hcall
    obtain rfl := Option.some.inj hcall
    refine h.addEntry hprocess hwaiting (fun q' => eq_comm) hnot fun q' => ?_
    rw [hhere]
    exact id
  | set =>
    simp only [proceed, hhere] at hcall
    obtain rfl := Option.some.inj hcall
    refine (hgo .check nofun nofun).2 _ ?_
    split
    · exact .inr (.inl rfl)
    · exact .inr (.inr rfl)
  | check =>
    simp only [proceed, hhere] at hcall
    split at hcall
    · obtain rfl := Option.some.inj hcall
      exact (hgo .out nofun nofun).2 _ (.inl rfl)
    · obtain rfl := Option.some.inj hcall
      refine (hgo _ nofun ?_).1
      split <;> nofun
  | signal =>
    simp only [proceed, hhere] at hcall
    split at hcall
    · obtain rfl := Option.some.inj hcall
      exact (hgo .out nofun nofun).2 _ (.inl rfl)
    · obtain rfl := Option.some.inj hcall
      exact (hgo .sleep nofun nofun).1
  | sleep =>
    simp only [proceed, hhere] at hcall
    exact (hgo .set nofun nofun).1.scheduleTo trivial trivial hcall
  | out =>
    simp only [proceed, hhere] at hcall
    obtain rfl := Option.some.inj hcall
    refine h.removeEntry hprocess fun q' => ?_
    rw [hhere]
    exact eq_comm

/-- **Every piece** of the functions that wait keeps the invariant. -/
theorem proceed (h : WaitInv w) (hcall : w.proceed = some w') : WaitInv w' := by
  cases hhere : w.here with
  | outside | vforkOut =>
    simp only [WaitSys.proceed, hhere] at hcall
    cases hcall
  | sleepOn q slept => exact h.proceed_sleepOn hhere hcall
  | event q intr phase => exact h.proceed_event hhere hcall
  | completion x phase =>
    cases phase with
    | call =>
      simp only [WaitSys.proceed, hhere] at hcall
      obtain rfl := Option.some.inj hcall
      exact h.waitForCompletion hhere
    | wake =>
      simp only [WaitSys.proceed, hhere] at hcall
      obtain rfl := Option.some.inj hcall
      exact h.waitForCompletionWoken hhere
    | sleep =>
      simp only [WaitSys.proceed, hhere] at hcall
      have hprocess : Op.InProcess w.sys := h.inProcess (by rw [hhere]; nofun)
      have hwake : WaitInv (w.goto (.completion x .wake)) := by
        refine h.goto hprocess (fun _ => h.waiting_here (by rw [hhere]; trivial))
          (fun p phase hc => ?_) (fun y => ?_) fun q => ?_
        · obtain ⟨rfl, -⟩ := Place.completion.inj hc
          exact h.owner _ p _ hhere
        · rw [hhere]
          exact Iff.rfl
        · rw [hhere]
          exact Iff.rfl
      exact hwake.scheduleTo trivial trivial hcall

omit [WaitHeader] in
/-- **`current` enters** a function that waits. -/
theorem enter {call : WaitCall} (h : WaitInv w) (hen : (WaitOp.enter call).Enabled w) :
    WaitInv (w.enter call) := by
  obtain ⟨hprocess, hhere, hruns⟩ := hen
  have hnot : ∀ x, ¬w.here.OnCompletion x := fun x => by
    rw [hhere]
    exact id
  have hnotQueue : ∀ q, ¬w.here.OnQueue q := fun q => by
    rw [hhere]
    exact id
  -- no entry is added yet
  have hgo : ∀ place : Place, (∀ p phase, place ≠ .completion (.vfork p) phase) →
      (∀ x, ¬place.OnCompletion x) → (∀ q, ¬place.OnQueue q) → WaitInv (w.goto place) ∧
        ∀ state, Waiting state → WaitInv ((w.setCurrentState state).goto place) := by
    intro place howner hoff hoff'
    exact ⟨h.goto hprocess (fun _ => .inl hruns) (fun p phase hc => absurd hc (howner p phase))
      (fun x => iff_of_false (hoff x) (hnot x)) fun q => iff_of_false (hoff' q) (hnotQueue q),
      fun state hstate => h.setStateGoto hprocess hstate
        (fun p phase hc => absurd hc (howner p phase)) (fun x => iff_of_false (hoff x) (hnot x))
        (fun q => iff_of_false (hoff' q) (hnotQueue q)) fun x hx => absurd hx (hnot x)⟩
  cases call with
  | waitForCompletion x =>
    exact (hgo (.completion (.other x) .call) (fun _ _ => nofun) (fun _ => id) fun _ => id).1
  | sleepOn q =>
    have hsleep := hgo (.sleepOn q false) (fun _ _ => nofun) (fun _ => id) fun _ => id
    exact hsleep.2 _ (.inr (.inr rfl))
  | interruptibleSleepOn q =>
    have hsleep := hgo (.sleepOn q false) (fun _ _ => nofun) (fun _ => id) fun _ => id
    exact hsleep.2 _ (.inr (.inl rfl))
  | waitEvent q =>
    unfold WaitSys.enter
    dsimp only
    split
    · exact h
    · exact (hgo (.event q false .add) (fun _ _ => nofun) (fun _ => id) fun _ => id).1
  | waitEventInterruptible q =>
    unfold WaitSys.enter
    dsimp only
    split
    · exact h
    · exact (hgo (.event q true .add) (fun _ _ => nofun) (fun _ => id) fun _ => id).1

/-! ## Wake-ups -/

omit [WaitHeader] [Param] in
theorem wakeable (h : WaitInv w) {l : List WaitEntry} {sync : Bool}
    (hin : ∀ wait ∈ l, (w.place wait.task).Inside)
    (hsafe : ∀ wait ∈ l, ForkSafe w.sys (.tryToWakeUp wait.task false)) :
    Wakeable l sync w.sys :=
  ⟨h.fork, fun wait hwait => h.listed _ (hin wait hwait).ne_outside, hsafe⟩

omit [WaitHeader] in
/-- **A wake-up** of tasks that wait. -/
theorem wakes (h : WaitInv w) {l : List WaitEntry} {sync : Bool} (hwakeable : Wakeable l sync w.sys)
    (hnodup : (l.map (·.task)).Nodup) (mode : UInt32) (nrExclusive : ℤ) :
    WaitInv { w with sys := w.sys.wakeUpCommon mode sync l nrExclusive } := by
  obtain ⟨ops, hrun⟩ := hwakeable.run mode nrExclusive
  obtain ⟨hlists, hptrs⟩ := wakeUpCommon_frame mode sync l nrExclusive w.sys
  obtain ⟨pre, suf, -, hwakes⟩ := hwakeable.wakesUp hnodup mode nrExclusive
  obtain ⟨hfork, hsleep⟩ := SleepInv.run ⟨h.fork, h.sleep⟩ hrun
  refine h.sys hfork hsleep (fun t ht => ?_) hptrs.idle (.inl hptrs.curr) (fun hf => .inl ?_)
    fun t _ => ?_
  · rw [hlists.tasklist]
    exact (h.listed t ht).1
  · rwa [hlists.forking] at hf
  · by_cases ht : ∃ wait ∈ pre, wait.task = t ∧ w.sys.WaitsIn mode wait
    · exact .inr (hwakes.state t ht)
    · exact .inl (hwakes.other_state t ht)

omit [WaitHeader] [Param] in
/-- Another value of `done`. -/
theorem setDone (h : WaitInv w) {done : UInt32}
    (hserved : done.toNat ≤ w.sys.awake (w.completion x).wait.taskList ∨
      w.sys.awake (w.completion x).wait.taskList = (w.completion x).wait.taskList.length) :
    WaitInv (w.setCompletion x { w.completion x with done := done }) := by
  have hwait : ∀ y, ((w.setCompletion x { w.completion x with done := done }).completion y).wait =
      (w.completion y).wait := by
    intro y
    by_cases hy : y = x
    · subst hy
      rw [completion_self]
    · rw [completion_of_ne hy]
  refine ⟨h.fork, h.sleep, h.listed, h.parked, h.noFork, h.waiting, h.owner, fun y wait => ?_,
    h.onQueue, fun y => ?_, h.queueNodup, fun y => ?_⟩
  · rw [hwait]
    exact h.onCompletion y wait
  · rw [hwait]
    exact h.completionNodup y
  · by_cases hy : y = x
    · subst hy
      unfold Served
      rw [completion_self]
      exact hserved
    · unfold Served
      rw [completion_of_ne hy]
      exact h.served y

omit [WaitHeader] [Param] in
theorem toNat_add_one {done : UInt32} (h : done.toNat + 1 < UInt32.size) :
    (done + 1).toNat = done.toNat + 1 := by
  rw [UInt32.toNat_add]
  exact Nat.mod_eq_of_lt h

omit [WaitHeader] in
/-- **`complete`** -/
theorem complete (h : WaitInv w)
    (hsafe : ∀ wait ∈ (w.completion x).wait.taskList,
      ForkSafe w.sys (.tryToWakeUp wait.task false))
    (hdone : (w.completion x).done.toNat + 1 < UInt32.size) : WaitInv (w.complete x) := by
  have hin : ∀ wait ∈ (w.completion x).wait.taskList, (w.place wait.task).Inside :=
    fun wait hwait => h.completion_inside hwait
  have hwakeable : Wakeable (w.completion x).wait.taskList false w.sys := h.wakeable hin hsafe
  have hwoken := h.wakes hwakeable (h.completion_tasks x) anySleep 1
  have hmore := hwakeable.one_more (h.completion_tasks x) fun wait hwait =>
    h.waiting _ (hin wait hwait)
  refine hwoken.setDone (x := x) ?_
  dsimp only
  rw [toNat_add_one hdone]
  rcases hmore with hall | hlt
  · exact .inr hall
  · have hle : (w.sys.wakeUpCommon anySleep false (w.completion x).wait.taskList 1).awake
        (w.completion x).wait.taskList ≤ (w.completion x).wait.taskList.length :=
      List.countP_le_length
    rcases h.served x with hserved | hserved
    · exact .inl (by omega)
    · omega

/-! ## Steps of the scheduler -/

omit [WaitHeader] in
/-- No task that waits goes to sleep in a step of the scheduler. -/
theorem sched_state (h : WaitInv w) {op : Op} {s : Sys} (hstep : Step w.sys op s)
    (hallows : WaitOp.Allows w op) (hsafe : AwakeSafe w.sys op) {t : TaskId}
    (ht : (w.place t).Inside) :
    (s.task t).state = (w.sys.task t).state ∨ (s.task t).state = .running := by
  -- `current` does nothing but take interrupts while it waits
  have houtside : op.Interrupt ∨ ¬w.here.Inside := by
    cases op <;> first | exact .inl trivial | right
    case vforkReturn => rw [show w.here = _ from hallows]; exact id
    case doExit reaper => rw [show w.here = _ from hallows.1]; exact id
    all_goals rw [show w.here = _ from hallows]; exact id
  refine step_state h.fork h.sleep hstep hsafe (.inl (h.listed t ht.ne_outside).1) ?_
  rcases houtside with hinterrupt | hnot
  · right
    cases op <;> first | exact id | exact hinterrupt.elim
  · left
    rintro rfl
    exact hnot ht

omit [WaitHeader] in
/-- **A step of the scheduler** that the machine allows. -/
theorem sched (h : WaitInv w) {op : Op} {s : Sys} (hstep : Step w.sys op s)
    (hallows : WaitOp.Allows w op) (hsafe : AwakeSafe w.sys op) :
    WaitInv { w with sys := s } := by
  have hlists := step_lists hstep
  refine h.sys (h.fork.step hstep hsafe.1) (h.sleep.step h.fork hstep hsafe) (fun t ht => ?_)
    (step_idle hstep) ?_ (fun hf => ?_) fun t ht => h.sched_state hstep hallows hsafe ht
  · have hmem := (h.listed t ht).1
    cases hlists with
    | same _ hsame =>
      rw [hsame.tasklist]
      exact hmem
    | doFork cloneFlags env htasklist _ =>
      rw [htasklist]
      exact hmem
    | doForkSplit _ _ htasklist _ =>
      rw [htasklist]
      exact hmem
    | doForkWake _ htasklist _ =>
      rw [htasklist]
      exact List.mem_append_left _ hmem
    | schedExit p htasklist _ =>
      -- a zombie does not wait
      obtain ⟨-, -, -, hcurr, hzombie, -⟩ := hstep.1
      rw [htasklist, h.sleep.nodup.mem_erase_iff]
      refine ⟨?_, hmem⟩
      rintro rfl
      have hwaiting := h.waiting t ((h.parked t hcurr).inside ht)
      rw [hzombie] at hwaiting
      rcases hwaiting with hc | hc | hc <;> cases hc
  · rcases (step_ptrs hstep).2 with hsame | rfl | rfl
    · exact .inl hsame.curr
    · right
      rw [show w.here = _ from hallows, (sameLists_schedule hstep.2).forking]
      exact ⟨trivial, hstep.1⟩
    · right
      rw [show w.here = _ from hallows, (sameLists_sysSchedYield hstep.2).forking]
      exact ⟨trivial, hstep.1.1⟩
  · cases hlists with
    | same _ hsame =>
      rw [hsame.forking] at hf
      exact .inl hf
    | doFork cloneFlags env _ _ => exact .inr ⟨hallows, hstep.1.1.2⟩
    | doForkSplit hpending =>
      rw [hpending]
      exact .inl (Option.some_ne_none _)
    | doForkWake _ _ hforking => exact absurd hforking hf
    | schedExit p _ hforking =>
      rw [hforking] at hf
      exact .inl hf

end WaitInv
end WaitSys
end ShortSched
