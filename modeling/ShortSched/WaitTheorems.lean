import ShortSched.Waiting

/-!
# What a wake-up does to the waiters of a queue

`__wake_up_common` goes through the queue and stops at the `nr_exclusive`th exclusive waiter that
it takes out of its sleep. A waiter that has not left the runqueue yet is set to run, but does not
count.
-/

namespace ShortSched

open General Sys

namespace Sys

variable {s s' s'' : Sys} {p t : TaskId} {sync : Bool} {mode : UInt32} {q : List WaitEntry}
  {nrExclusive : ℤ}

/-- The state of the waiter is in the mode of the wake-up. -/
def WaitsIn (s : Sys) (mode : UInt32) (wait : WaitEntry) : Prop :=
  (s.task wait.task).state.bits &&& mode ≠ 0

/-- The wake-up takes the waiter out of its sleep, and counts it. -/
def Counts (s : Sys) (mode : UInt32) (wait : WaitEntry) : Prop :=
  wait.exclusive = true ∧ s.WaitsIn mode wait ∧ (s.task wait.task).array = none

instance (s : Sys) (mode : UInt32) : DecidablePred (s.WaitsIn mode) :=
  fun _ => inferInstanceAs (Decidable (_ ≠ _))

instance (s : Sys) (mode : UInt32) : DecidablePred (s.Counts mode) :=
  fun _ => inferInstanceAs (Decidable (_ ∧ _))

/-- The tasks of `woken` are set to run and are on the runqueue, and no other task goes to sleep or
wakes up. -/
structure Wakes (woken : TaskId → Prop) (s s' : Sys) : Prop where
  state : ∀ t, woken t → (s'.task t).state = .running
  array : ∀ t, woken t → (s'.task t).array ≠ none
  other_state : ∀ t, ¬woken t → (s'.task t).state = (s.task t).state
  other_array : ∀ t, ¬woken t → ((s'.task t).array = none ↔ (s.task t).array = none)

/-- A wake-up goes through `pre`, leaves `suf` alone, and stops where it should. -/
structure WakesUp (mode : UInt32) (nrExclusive : ℤ) (pre suf : List WaitEntry) (s s' : Sys) :
    Prop extends Wakes (fun t => ∃ wait ∈ pre, wait.task = t ∧ s.WaitsIn mode wait) s s' where
  stops : suf = [] ∧ (0 < nrExclusive → (pre.countP (s.Counts mode ·) : ℤ) < nrExclusive) ∨
    (pre.countP (s.Counts mode ·) : ℤ) = nrExclusive ∧ ∃ wait ∈ pre.getLast?, s.Counts mode wait

theorem Wakes.refl (s : Sys) : Wakes (fun _ => False) s s :=
  ⟨fun _ => False.elim, fun _ => False.elim, fun _ _ => rfl, fun _ _ => Iff.rfl⟩

/-- Two rounds of wake-ups are one. -/
theorem Wakes.trans {woken woken' : TaskId → Prop} (h : Wakes woken s s')
    (h' : Wakes woken' s' s'') : Wakes (fun t => woken t ∨ woken' t) s s'' where
  state t ht := by
    by_cases hc : woken' t
    · exact h'.state t hc
    · rw [h'.other_state t hc]
      exact h.state t (ht.resolve_right hc)
  array t ht := by
    by_cases hc : woken' t
    · exact h'.array t hc
    · exact mt (h'.other_array t hc).mp (h.array t (ht.resolve_right hc))
  other_state t ht := by
    obtain ⟨hne, hne'⟩ := not_or.mp ht
    rw [h'.other_state t hne', h.other_state t hne]
  other_array t ht := by
    obtain ⟨hne, hne'⟩ := not_or.mp ht
    rw [h'.other_array t hne', h.other_array t hne]

theorem Wakes.congr {woken woken' : TaskId → Prop} (h : Wakes woken s s')
    (hiff : ∀ t, woken' t ↔ woken t) : Wakes woken' s s' := by
  have heq : woken' = woken := by
    funext t
    exact propext (hiff t)
  rwa [heq]

/-- A task that runs is on the runqueue or waits in no mode. -/
theorem not_waitsIn_of_running {wait : WaitEntry} (h : (s.task wait.task).state = .running) :
    ¬s.WaitsIn mode wait := by
  rw [WaitsIn, h, TaskState.bits, UInt32.zero_and]
  exact not_not.mpr rfl

variable [Param]

theorem wakes_tryToWakeUp (p : TaskId) (sync : Bool) (s : Sys)
    (hpulled : ∀ t ∈ s.pulled p, (s.task t).array ≠ none) :
    Wakes (fun t => t = p) s (s.tryToWakeUp p sync).2 := by
  obtain ⟨hmove, hruns, hqueued⟩ := sleepMove_tryToWakeUp p sync s hpulled
  exact ⟨fun _ ht => ht ▸ hruns, fun _ ht => ht ▸ hqueued, hmove.state, hmove.array⟩

omit [Param] in
/-- `try_to_wake_up` succeeds if and only if the task was in no queue. -/
theorem tryToWakeUp_success [Param] (p : TaskId) (sync : Bool) (s : Sys) :
    (s.tryToWakeUp p sync).1 = true ↔ (s.task p).array = none := by
  unfold tryToWakeUp
  dsimp only
  split
  · next h => exact iff_of_true rfl h
  · next h => exact iff_of_false Bool.false_ne_true h

/-! ## Wake-ups are steps of the scheduler -/

/-- All waiters may be woken: they are listed, and no wake-up of them finds the flag of a fork raised
in a way that does harm. -/
structure Wakeable (q : List WaitEntry) (sync : Bool) (s : Sys) : Prop where
  inv : ForkInv s
  listed : ∀ wait ∈ q, wait.task ∈ s.tasklist ∧ wait.task ≠ s.rq.idle
  safe : ∀ wait ∈ q, ForkSafe s (.tryToWakeUp wait.task sync)

/-- One wake-up does not make another one unsafe. -/
theorem forkSafe_tryToWakeUp (hsafe : ForkSafe s (.tryToWakeUp t sync)) (p : TaskId) :
    ForkSafe (s.tryToWakeUp p sync).2 (.tryToWakeUp t sync) := by
  rintro ⟨hflag, harray, hparent, hover, hother⟩
  have hcurr := (samePtrs_tryToWakeUp p sync s).curr
  rw [current, hcurr, tryToWakeUp_justGotForked] at hflag
  split at hflag
  · exact hflag rfl
  rw [tryToWakeUp_array] at harray
  split at harray
  · cases harray
  next hnot =>
  have hsched : ((s.tryToWakeUp p sync).2.task t).toTaskSched = (s.task t).toTaskSched := by
    rw [tryToWakeUp_sched, if_neg]
    rintro ⟨rfl, hc⟩
    exact hnot ⟨hc, .inl rfl⟩
  rw [(tryToWakeUp_frame p t sync s).1, hcurr] at hparent
  rw [hsched] at hover hother
  exact hsafe ⟨hflag, harray, hparent, hover, hother⟩

omit [Param] in
theorem Wakeable.tail {wait : WaitEntry} (h : Wakeable (wait :: q) sync s) : Wakeable q sync s :=
  ⟨h.inv, fun w hw => h.listed w (List.mem_cons_of_mem _ hw),
    fun w hw => h.safe w (List.mem_cons_of_mem _ hw)⟩

theorem Wakeable.step {wait : WaitEntry} (h : Wakeable (wait :: q) sync s) :
    Guarded AwakeSafe Step s (.tryToWakeUp wait.task sync) (s.tryToWakeUp wait.task sync).2 :=
  ⟨⟨h.safe wait List.mem_cons_self, fun hc => absurd hc Bool.false_ne_true⟩,
    h.listed wait List.mem_cons_self, rfl⟩

/-- The rest of the queue can be woken after the first. -/
theorem Wakeable.tryToWakeUp {wait : WaitEntry} (h : Wakeable (wait :: q) sync s) :
    Wakeable q sync (s.tryToWakeUp wait.task sync).2 where
  inv := h.inv.step h.step.2 h.step.1.1
  listed w hw := by
    rw [(sameLists_tryToWakeUp _ _ _).tasklist, (samePtrs_tryToWakeUp _ _ _).idle]
    exact h.listed w (List.mem_cons_of_mem _ hw)
  safe w hw := forkSafe_tryToWakeUp (h.safe w (List.mem_cons_of_mem _ hw)) _

/-- **A wake-up** is a sequence of steps of the scheduler. -/
theorem Wakeable.run (h : Wakeable q sync s) (mode : UInt32) (nrExclusive : ℤ) :
    ∃ ops, Run (Guarded AwakeSafe Step) s ops (s.wakeUpCommon mode sync q nrExclusive) := by
  induction q generalizing s nrExclusive with
  | nil => exact ⟨[], Run.nil s⟩
  | cons wait rest ih =>
    have hstep := h.step
    have hwoken := h.tryToWakeUp
    rw [wakeUpCommon]
    dsimp only
    split
    swap
    · exact ih h.tail nrExclusive
    split
    · split
      · exact ⟨_, Run.single hstep⟩
      · obtain ⟨ops, hrun⟩ := ih hwoken (nrExclusive - 1)
        exact ⟨_, Run.cons hstep hrun⟩
    · obtain ⟨ops, hrun⟩ := ih hwoken nrExclusive
      exact ⟨_, Run.cons hstep hrun⟩

/-- What a wake-up leaves alone. -/
theorem wakeUpCommon_frame (mode : UInt32) (sync : Bool) (q : List WaitEntry) (nrExclusive : ℤ)
    (s : Sys) : SameLists s (s.wakeUpCommon mode sync q nrExclusive) ∧
      SamePtrs s.rq.toRqPtrs (s.wakeUpCommon mode sync q nrExclusive).rq.toRqPtrs := by
  induction q generalizing s nrExclusive with
  | nil => exact ⟨.refl s, .refl _⟩
  | cons wait rest ih =>
    have hlists := sameLists_tryToWakeUp wait.task sync s
    have hptrs := samePtrs_tryToWakeUp wait.task sync s
    have hrest : ∀ n, SameLists s ((s.tryToWakeUp wait.task sync).2.wakeUpCommon mode sync rest n) ∧
        SamePtrs s.rq.toRqPtrs
          ((s.tryToWakeUp wait.task sync).2.wakeUpCommon mode sync rest n).rq.toRqPtrs := fun n =>
      ⟨hlists.trans (ih n _).1, hptrs.trans (ih n _).2⟩
    rw [wakeUpCommon]
    dsimp only
    split
    swap
    · exact ih nrExclusive s
    split
    · split
      · exact ⟨hlists, hptrs⟩
      · exact hrest _
    · exact hrest _

/-! ## Which tasks a wake-up wakes -/

omit [Param] in
/-- One more waiter in front. -/
theorem WakesUp.cons {wait : WaitEntry} {pre suf : List WaitEntry} {n : ℤ}
    (hfirst : Wakes (fun t => t = wait.task ∧ s.WaitsIn mode wait) s s')
    (hnot : ∀ w ∈ pre, w.task ≠ wait.task) (h : WakesUp mode n pre suf s' s'')
    (hn : n = nrExclusive - if s.Counts mode wait then 1 else 0)
    (hgo : s.Counts mode wait → nrExclusive ≠ 1) :
    WakesUp mode nrExclusive (wait :: pre) suf s s'' := by
  -- the first wake-up changes nothing for the others
  have hwaits : ∀ w ∈ pre, (s'.WaitsIn mode w ↔ s.WaitsIn mode w) := by
    intro w hw
    rw [WaitsIn, WaitsIn, hfirst.other_state _ fun hc => hnot w hw hc.1]
  have hcounts : ∀ w ∈ pre, (s'.Counts mode w ↔ s.Counts mode w) := by
    intro w hw
    rw [Counts, Counts, hwaits w hw, hfirst.other_array _ fun hc => hnot w hw hc.1]
  have hcount : ((wait :: pre).countP (s.Counts mode ·) : ℤ) =
      (pre.countP (s'.Counts mode ·) : ℤ) + if s.Counts mode wait then 1 else 0 := by
    have hrest : pre.countP (s.Counts mode ·) = pre.countP (s'.Counts mode ·) := by
      apply List.countP_congr
      intro w hw
      rw [decide_eq_true_eq, decide_eq_true_eq, hcounts w hw]
    rw [List.countP_cons, hrest]
    by_cases hc : s.Counts mode wait
    · simp [hc]
    · simp [hc]
  constructor
  case toWakes =>
    refine (hfirst.trans h.toWakes).congr fun t => ?_
    constructor
    · rintro ⟨w, hw, rfl, hin⟩
      rcases List.mem_cons.mp hw with rfl | hw
      · exact .inl ⟨rfl, hin⟩
      · exact .inr ⟨w, hw, rfl, (hwaits w hw).mpr hin⟩
    · rintro (⟨rfl, hin⟩ | ⟨w, hw, rfl, hin⟩)
      · exact ⟨wait, List.mem_cons_self, rfl, hin⟩
      · exact ⟨w, List.mem_cons_of_mem _ hw, rfl, (hwaits w hw).mp hin⟩
  case stops =>
    rw [hcount]
    rcases h.stops with ⟨hsuf, hlt⟩ | ⟨heq, w, hlast, hw⟩
    · refine .inl ⟨hsuf, fun hpos => ?_⟩
      split at hn
      · next hc =>
        rw [if_pos hc]
        have hne := hgo hc
        have hlt := hlt (by omega)
        omega
      · next hc =>
        rw [if_neg hc]
        have hlt := hlt (by omega)
        omega
    · refine .inr ⟨by omega, w, ?_, (hcounts w (List.mem_of_mem_getLast? hlast)).mp hw⟩
      rw [List.getLast?_cons, Option.mem_def.mp hlast]
      exact rfl

/-- **`__wake_up_common`** goes through a prefix of the queue. -/
theorem Wakeable.wakesUp (h : Wakeable q sync s) (hnodup : (q.map (·.task)).Nodup)
    (mode : UInt32) (nrExclusive : ℤ) : ∃ pre suf, q = pre ++ suf ∧
      WakesUp mode nrExclusive pre suf s (s.wakeUpCommon mode sync q nrExclusive) := by
  induction q generalizing s nrExclusive with
  | nil =>
    refine ⟨[], [], rfl, ?_, .inl ⟨rfl, fun hpos => hpos⟩⟩
    refine (Wakes.refl s).congr fun t => ?_
    simp
  | cons wait rest ih =>
    rw [List.map_cons, List.nodup_cons] at hnodup
    obtain ⟨hfresh, hrest⟩ := hnodup
    have hne : ∀ pre suf, rest = pre ++ suf → ∀ w ∈ pre, w.task ≠ wait.task := by
      rintro pre suf rfl w hw hc
      exact hfresh (hc ▸ List.mem_map_of_mem (List.mem_append_left suf hw))
    rw [wakeUpCommon]
    dsimp only
    by_cases hin : s.WaitsIn mode wait
    swap
    · -- the waiter is passed over
      obtain ⟨pre, suf, rfl, hpre⟩ := ih h.tail hrest nrExclusive
      have hnot : ¬s.Counts mode wait := fun hc => hin hc.2.1
      have hskip : ¬(s.task wait.task).state.bits &&& mode ≠ 0 := hin
      rw [if_neg hskip]
      refine ⟨wait :: pre, suf, rfl, .cons ?_ (hne pre suf rfl) hpre ?_ fun hc => absurd hc hnot⟩
      · exact (Wakes.refl s).congr fun t => iff_of_false (fun hc => hin hc.2) id
      · rw [if_neg hnot, sub_zero]
    have hfirst : Wakes (fun t => t = wait.task ∧ s.WaitsIn mode wait) s
        (s.tryToWakeUp wait.task sync).2 :=
      (wakes_tryToWakeUp _ sync s h.inv.pulled_queued).congr fun t => and_iff_left hin
    have hcounts : (s.tryToWakeUp wait.task sync).1 = true ∧ wait.exclusive = true ↔
        s.Counts mode wait := by
      rw [tryToWakeUp_success, Counts]
      tauto
    have hwake : (s.task wait.task).state.bits &&& mode ≠ 0 := hin
    rw [if_pos hwake]
    by_cases hc : s.Counts mode wait
    · rw [if_pos (hcounts.mpr hc)]
      by_cases hlast : nrExclusive - 1 = 0
      · -- the last exclusive waiter to wake
        rw [if_pos hlast]
        refine ⟨[wait], rest, rfl, hfirst.congr fun t => ?_, .inr ⟨?_, wait, rfl, hc⟩⟩
        · simp [eq_comm]
        · simp [hc]
          omega
      · -- an exclusive waiter, and more may be woken
        obtain ⟨pre, suf, rfl, hpre⟩ := ih h.tryToWakeUp hrest (nrExclusive - 1)
        rw [if_neg hlast]
        refine ⟨wait :: pre, suf, rfl, .cons hfirst (hne pre suf rfl) hpre ?_ fun _ => ?_⟩
        · rw [if_pos hc]
        · omega
    · -- woken, but not counted
      obtain ⟨pre, suf, rfl, hpre⟩ := ih h.tryToWakeUp hrest nrExclusive
      rw [if_neg (mt hcounts.mp hc)]
      refine ⟨wait :: pre, suf, rfl, .cons hfirst (hne pre suf rfl) hpre ?_ fun h => absurd h hc⟩
      rw [if_neg hc, sub_zero]

/-- **`__wake_up_common`**, when a wake-up of none of the waiters finds the flag of a fork raised, wakes
every waiter that is not exclusive, in the mode, and the first of those that are: as many sleepers as
`nr_exclusive` says, or all of them for 0. No other task goes to sleep or wakes up. -/
theorem wakeUpCommon_spec {q : WaitQueueHead} (h : Wakeable q.taskList sync s)
    (hnodup : (q.taskList.map (·.task)).Nodup) (mode : UInt32) (nrExclusive : ℤ) :
    ∃ pre suf, q.taskList = pre ++ suf ∧
      Wakes (fun t => ∃ wait ∈ pre, wait.task = t ∧ s.WaitsIn mode wait) s
        (s.wakeUpCommon mode sync q.taskList nrExclusive) ∧
      (∀ wait ∈ suf, wait.exclusive = true) ∧ (nrExclusive ≤ 0 → suf = []) ∧
      (pre.countP (s.Counts mode ·) : ℤ) =
        if 0 < nrExclusive then min nrExclusive (q.taskList.countP (s.Counts mode ·))
        else q.taskList.countP (s.Counts mode ·) := by
  obtain ⟨pre, suf, hq, hwakes⟩ := h.wakesUp hnodup mode nrExclusive
  refine ⟨pre, suf, hq, hwakes.toWakes, ?_⟩
  have htotal : (q.taskList.countP (s.Counts mode ·) : ℤ) =
      pre.countP (s.Counts mode ·) + suf.countP (s.Counts mode ·) := by
    rw [hq, List.countP_append]
    exact Nat.cast_add _ _
  rcases hwakes.stops with ⟨rfl, hlt⟩ | ⟨heq, wait, hlast, hcounts⟩
  · rw [List.countP_nil] at htotal
    refine ⟨fun _ hw => absurd hw List.not_mem_nil, fun _ => rfl, ?_⟩
    split
    · next hpos =>
      have hlt := hlt hpos
      omega
    · omega
  · have hmem := List.mem_of_mem_getLast? hlast
    have hpos : 0 < pre.countP (s.Counts mode ·) :=
      List.countP_pos_iff.mpr ⟨wait, hmem, decide_eq_true hcounts⟩
    refine ⟨fun w hw => ?_, fun hle => by omega, ?_⟩
    · have hlater := q.exclusiveLast
      rw [hq] at hlater
      exact (List.pairwise_append.mp hlater).2.2 wait hmem w hw hcounts.1
    · rw [if_pos (by omega)]
      omega

omit [Param] in
/-- One of two exclusive sleepers is woken, after the waiter that is not exclusive. -/
theorem wakeUpCommon_spec_three :
    let s := ofList [sleepingTask 1, sleepingTask 2, sleepingTask 3] 0
    let q : WaitQueueHead := ⟨[⟨1, false⟩, ⟨2, true⟩, ⟨3, true⟩], by unfold ExclusiveLast; decide⟩
    let s' := @wakeUpCommon hz100 anySleep false q.taskList 1 s
    (s'.task 1).state = .running ∧ (s'.task 2).state = .running ∧
      ∃ pre suf, q.taskList = pre ++ suf ∧ (pre.countP (s.Counts anySleep ·) : ℤ) = 1 := by
  intro s q s'
  have hinv : s.RqInv := rqInv_ofList (.inl rfl) (by decide)
  have hwakeable : Wakeable q.taskList false s :=
    ⟨forkInv_of_noFlags hinv (noFlags_ofList (by decide)) rfl, by decide, by decide⟩
  obtain ⟨pre, suf, hq, -, -, -, hcount⟩ :=
    @wakeUpCommon_spec _ _ hz100 _ hwakeable (by decide) anySleep 1
  have htotal : (q.taskList.countP (s.Counts anySleep ·) : ℤ) = 2 := by decide +kernel
  refine ⟨by decide +kernel, by decide +kernel, pre, suf, hq, ?_⟩
  rw [hcount, htotal]
  rfl

/-! ## The waiters of a completion -/

/-- The waiters that run. -/
def awake (s : Sys) (q : List WaitEntry) : ℕ :=
  q.countP fun wait => (s.task wait.task).state = .running

omit [Param] in
theorem awake_mono (h : ∀ wait ∈ q, (s.task wait.task).state = .running →
    (s'.task wait.task).state = .running) : s.awake q ≤ s'.awake q := by
  apply List.countP_mono_left
  intro wait hwait hruns
  exact decide_eq_true (h wait hwait (of_decide_eq_true hruns))

omit [Param] in
/-- A task more that is awake. -/
theorem awake_lt {wait : WaitEntry} (h : ∀ wait ∈ q, (s.task wait.task).state = .running →
    (s'.task wait.task).state = .running) (hwait : wait ∈ q)
    (hsleeps : (s.task wait.task).state ≠ .running) (hruns : (s'.task wait.task).state = .running) :
    s.awake q < s'.awake q := by
  obtain ⟨l, l', rfl⟩ := List.append_of_mem hwait
  have hl : s.awake l ≤ s'.awake l := awake_mono fun w hw => h w (List.mem_append_left _ hw)
  have hl' : s.awake l' ≤ s'.awake l' :=
    awake_mono fun w hw => h w (List.mem_append_right _ (List.mem_cons_of_mem _ hw))
  unfold awake at *
  rw [List.countP_append, List.countP_append, List.countP_cons_of_neg (by simp [hsleeps]),
    List.countP_cons_of_pos (by simp [hruns])]
  omega

omit [Param] in
theorem awake_eq_length (h : ∀ wait ∈ q, (s.task wait.task).state = .running) :
    s.awake q = q.length :=
  List.countP_eq_length.mpr fun wait hwait => decide_eq_true (h wait hwait)

/-- What a task that waits in one of the functions of this file can be. -/
def Waiting (state : TaskState) : Prop :=
  state = .running ∨ state = .interruptible ∨ state = .uninterruptible

omit [Param] in
/-- Whoever does not wait any more runs. -/
theorem Waiting.running_of_not (h : Waiting (s.task p).state) {exclusive : Bool}
    (hnot : ¬s.WaitsIn anySleep ⟨p, exclusive⟩) : (s.task p).state = .running := by
  rcases h with h | h | h
  · exact h
  · rw [WaitsIn, h] at hnot
    exact absurd (by decide) hnot
  · rw [WaitsIn, h] at hnot
    exact absurd (by decide) hnot

omit [Param] in
theorem Wakes.running {woken : TaskId → Prop} (h : Wakes woken s s')
    (hruns : (s.task p).state = .running) : (s'.task p).state = .running := by
  by_cases hp : woken p
  · exact h.state p hp
  · rw [h.other_state p hp]
    exact hruns

/-- **`complete`** wakes one more waiter, or all of them run. -/
theorem Wakeable.one_more (h : Wakeable q sync s) (hnodup : (q.map (·.task)).Nodup)
    (hwaiting : ∀ wait ∈ q, Waiting (s.task wait.task).state) :
    (s.wakeUpCommon anySleep sync q 1).awake q = q.length ∨
      s.awake q < (s.wakeUpCommon anySleep sync q 1).awake q := by
  obtain ⟨pre, suf, hq, hwakes⟩ := h.wakesUp hnodup anySleep 1
  rcases hwakes.stops with ⟨rfl, -⟩ | ⟨-, wait, hlast, -, hin, -⟩
  · rw [List.append_nil] at hq
    left
    refine awake_eq_length fun wait hwait => ?_
    by_cases hin : s.WaitsIn anySleep wait
    · exact hwakes.state _ ⟨wait, hq ▸ hwait, rfl, hin⟩
    · exact hwakes.toWakes.running ((hwaiting wait hwait).running_of_not hin)
  · have hmem := List.mem_of_mem_getLast? hlast
    right
    refine awake_lt (fun w _ hruns => hwakes.toWakes.running hruns)
      (hq ▸ List.mem_append_left suf hmem) (fun hruns => not_waitsIn_of_running hruns hin)
      (hwakes.state _ ⟨wait, hmem, rfl, hin⟩)

end Sys
end ShortSched
