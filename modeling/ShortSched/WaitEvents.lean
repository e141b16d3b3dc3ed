import ShortSched.WaitRuns

/-!
# `wait_event`

A task that waits for an event puts its entry on the queue and sets its state before it looks at the
condition. So when a wake-up goes through the queue while the condition holds, no task sleeps in
`wait_event` from then on for as long as the condition holds, wherever it was before.
-/

namespace ShortSched

open General Sys

namespace Place

/-- The task is in `wait_event` or `wait_event_interruptible`. -/
def Awaits (q : ℕ) : Place → Prop
  | event q' _ _ => q' = q
  | outside | completion _ _ | vforkOut | sleepOn _ _ => False

/-- The task has found that the condition does not hold, and has not slept since. -/
def Behind (q : ℕ) : Place → Prop
  | event q' _ .signal | event q' _ .sleep => q' = q
  | event _ _ .add | event _ _ .set | event _ _ .check | event _ _ .out => False
  | outside | completion _ _ | vforkOut | sleepOn _ _ => False

variable {q : ℕ} {place : Place}

theorem Awaits.inside (h : place.Awaits q) : place.Inside := by
  cases place with
  | event => trivial
  | outside | completion | vforkOut | sleepOn => exact h.elim

theorem Behind.awaits (h : place.Behind q) : place.Awaits q := by
  cases place with
  | event q' intr phase => cases phase <;> first | exact h | exact h.elim
  | outside | completion | vforkOut | sleepOn => exact h.elim

/-- A task that was switched away in `wait_event`, or is about to be, is on the queue. -/
theorem Awaits.onQueue (h : place.Awaits q) (hplace : place.Parked ∨ place.Behind q) :
    place.OnQueue q := by
  cases place with
  | event q' intr phase => cases phase <;> first | exact h | exact hplace.elim id id |>.elim
  | outside | completion | vforkOut | sleepOn => exact h.elim

end Place

namespace WaitSys

variable {w w' : WaitSys} {op : WaitOp} {q : ℕ} {t : TaskId}

/-- The condition holds, and every task in `wait_event` has noticed, or is going to look. -/
structure Noticed (q : ℕ) (w : WaitSys) : Prop where
  holds : w.condition q = true
  here : w.here.Behind q → w.sys.current.state = .running
  others : ∀ t, t ≠ w.curr → (w.place t).Awaits q → (w.sys.task t).state = .running

namespace Noticed

/-- No task goes on, and none goes to sleep. -/
theorem same (h : Noticed q w) (hcondition : w'.condition q = true) (hplace : w'.place = w.place)
    (hcurr : w'.curr = w.curr)
    (hstate : ∀ t, (w.sys.task t).state = .running → (w'.sys.task t).state = .running) :
    Noticed q w' where
  holds := hcondition
  here hbehind := by
    rw [WaitSys.here, hplace, hcurr] at hbehind
    show (w'.sys.task w'.curr).state = .running
    rw [hcurr]
    exact hstate _ (h.here hbehind)
  others t ht hawaits := by
    rw [hcurr] at ht
    rw [hplace] at hawaits
    exact hstate t (h.others t ht hawaits)

/-- `current` goes on. -/
theorem move (h : Noticed q w) (hcondition : w'.condition = w.condition) (hcurr : w'.curr = w.curr)
    (hplace : ∀ t, t ≠ w.curr → w'.place t = w.place t)
    (hstate : ∀ t, t ≠ w.curr → (w'.sys.task t).state = (w.sys.task t).state)
    (hhere : (w'.place w.curr).Behind q → (w'.sys.task w.curr).state = .running) :
    Noticed q w' where
  holds := by
    rw [hcondition]
    exact h.holds
  here hbehind := by
    rw [WaitSys.here, hcurr] at hbehind
    show (w'.sys.task w'.curr).state = .running
    rw [hcurr]
    exact hhere hbehind
  others t ht hawaits := by
    rw [hcurr] at ht
    rw [hplace t ht] at hawaits
    rw [hstate t ht]
    exact h.others t ht hawaits

/-- `current` goes on to a place where it is not about to sleep in `wait_event`. -/
theorem goto (h : Noticed q w) {u : WaitSys} {place : Place} (hcondition : u.condition = w.condition)
    (hcurr : u.curr = w.curr) (hplace : u.place = w.place)
    (hstate : ∀ t, t ≠ w.curr → (u.sys.task t).state = (w.sys.task t).state)
    (hhere : ¬place.Behind q) : Noticed q (u.goto place) := by
  refine h.move hcondition hcurr (fun t ht => ?_) hstate fun hc => ?_
  · rw [← hcurr] at ht
    rw [place_goto_of_ne ht, hplace]
  · rw [← hcurr, show (u.goto place).place u.curr = place from here_goto place u] at hc
    exact absurd hc hhere

/-- `current` calls `schedule`. -/
theorem scheduleTo [Param] {u : WaitSys} {place : Place} (h : Noticed q (u.goto place))
    (hruns : place.Awaits q → u.sys.current.state = .running)
    (hcall : u.scheduleTo place = some w') : Noticed q w' := by
  obtain ⟨s, hs, rfl⟩ := Option.map_eq_some_iff.mp hcall
  have hall : ∀ t, ((u.goto place).place t).Awaits q → (s.task t).state = .running := by
    intro t ht
    have hbefore : (u.sys.task t).state = .running := by
      by_cases hcurr : t = u.curr
      · subst hcurr
        rw [show (u.goto place).place u.curr = place from here_goto place u] at ht
        exact hruns ht
      · exact h.others t hcurr ht
    rcases schedule_state hs t with hsame | hrunning
    · rw [hsame]
      exact hbefore
    · exact hrunning
  exact ⟨h.holds, fun hbehind => hall _ hbehind.awaits, fun t _ hawaits => hall t hawaits⟩

/-- **A step of the scheduler** -/
theorem sched [Param] (h : Noticed q w) (hinv : WaitInv w) {op : Op} {s : Sys} (hstep : Step w.sys op s)
    (hallows : WaitOp.Allows w op) (hsafe : AwakeSafe w.sys op) :
    Noticed q { w with sys := s } := by
  have hcurr : s.rq.curr = w.curr ∨ w.here = .outside := by
    rcases (step_ptrs hstep).2 with hsame | rfl | rfl
    · exact .inl hsame.curr
    · exact .inr hallows
    · exact .inr hallows
  have hstate : ∀ t, (w.place t).Awaits q → (w.sys.task t).state = .running →
      (s.task t).state = .running := by
    intro t ht hruns
    have hor := hinv.sched_state hstep hallows hsafe ht.inside
    rwa [hruns, or_self] at hor
  refine ⟨h.holds, fun hbehind => ?_, fun t ht hawaits => ?_⟩
  · have hbehind : (w.place s.rq.curr).Behind q := hbehind
    refine hstate _ hbehind.awaits ?_
    by_cases hsame : s.rq.curr = w.curr
    · rw [hsame] at hbehind ⊢
      exact h.here hbehind
    · exact h.others _ hsame hbehind.awaits
  · refine hstate t hawaits (h.others t ?_ hawaits)
    rintro rfl
    rw [show w.place w.curr = .outside from hcurr.resolve_left (Ne.symm ht)] at hawaits
    exact hawaits

/-- `current` sets its state, and goes on to a place where it is not about to sleep. -/
theorem setState (h : Noticed q w) {u : WaitSys} {state : TaskState} {place : Place}
    (hcondition : u.condition = w.condition) (hsys : u.sys = w.sys) (hplace : u.place = w.place)
    (hhere : ¬place.Behind q) : Noticed q ((u.setCurrentState state).goto place) := by
  refine h.goto hcondition ?_ hplace (fun t ht => ?_) hhere
  · rw [curr, curr, setCurrentState, hsys]
    rfl
  · rw [← hsys]
    refine (WaitInv.state_setCurrentState state u).2 t ?_
    rw [curr, hsys]
    exact ht

variable [WaitHeader] [Param]

omit [Param] in
/-- **`wait_for_completion`** -/
theorem completion (h : Noticed q w) (x : CompletionPtr) :
    Noticed q (w.waitForCompletion x) ∧ Noticed q (w.waitForCompletionWoken x) := by
  have hafter : ¬x.after.Behind q := fun hc =>
    (WaitInv.after_outside x).1 hc.awaits.inside
  constructor
  · unfold waitForCompletion
    dsimp only
    split
    · exact h.setState rfl rfl rfl id
    · exact h.goto rfl rfl rfl (fun _ _ => rfl) hafter
  · unfold waitForCompletionWoken
    dsimp only
    split
    · exact h.setState rfl rfl rfl id
    · exact h.goto rfl rfl rfl (fun _ _ => rfl) hafter

/-- **The next piece** of a function that waits. -/
theorem proceed (h : Noticed q w) (hcall : w.proceed = some w') : Noticed q w' := by
  cases hhere : w.here with
  | outside | vforkOut =>
    simp only [WaitSys.proceed, hhere] at hcall
    cases hcall
  | sleepOn q' slept =>
    cases slept with
    | false =>
      simp only [WaitSys.proceed, hhere] at hcall
      have hgoto : Noticed q ((w.addEntry q').goto (.sleepOn q' true)) :=
        h.goto rfl rfl rfl (fun _ _ => rfl) id
      exact hgoto.scheduleTo (fun hc => hc.elim) hcall
    | true =>
      simp only [WaitSys.proceed, hhere] at hcall
      obtain rfl := Option.some.inj hcall
      exact h.goto rfl rfl rfl (fun _ _ => rfl) id
  | completion x phase =>
    cases phase with
    | call =>
      simp only [WaitSys.proceed, hhere] at hcall
      obtain rfl := Option.some.inj hcall
      exact (h.completion x).1
    | wake =>
      simp only [WaitSys.proceed, hhere] at hcall
      obtain rfl := Option.some.inj hcall
      exact (h.completion x).2
    | sleep =>
      simp only [WaitSys.proceed, hhere] at hcall
      have hgoto : Noticed q (w.goto (.completion x .wake)) :=
        h.goto rfl rfl rfl (fun _ _ => rfl) id
      exact hgoto.scheduleTo (fun hc => hc.elim) hcall
  | event q' intr phase =>
    cases phase with
    | add | out =>
      simp only [WaitSys.proceed, hhere] at hcall
      obtain rfl := Option.some.inj hcall
      exact h.goto rfl rfl rfl (fun _ _ => rfl) id
    | set =>
      simp only [WaitSys.proceed, hhere] at hcall
      obtain rfl := Option.some.inj hcall
      exact h.setState rfl rfl rfl id
    | check =>
      simp only [WaitSys.proceed, hhere] at hcall
      split at hcall
      · obtain rfl := Option.some.inj hcall
        exact h.setState rfl rfl rfl id
      · next hfalse =>
        obtain rfl := Option.some.inj hcall
        refine h.goto rfl rfl rfl (fun _ _ => rfl) fun hc => ?_
        -- it looks after the condition came true
        have hq : q' = q := hc.awaits
        rw [hq] at hfalse
        exact hfalse h.holds
    | signal =>
      have hruns : q' = q → w.sys.current.state = .running := fun hq =>
        h.here (by rw [hhere]; exact hq)
      simp only [WaitSys.proceed, hhere] at hcall
      split at hcall
      · obtain rfl := Option.some.inj hcall
        exact h.setState rfl rfl rfl id
      · obtain rfl := Option.some.inj hcall
        refine h.move rfl rfl (fun t ht => place_goto_of_ne ht _) (fun _ _ => rfl) fun hc => ?_
        rw [show (w.goto _).place w.curr = _ from here_goto _ w] at hc
        exact hruns hc
    | sleep =>
      have hruns : q' = q → w.sys.current.state = .running := fun hq =>
        h.here (by rw [hhere]; exact hq)
      simp only [WaitSys.proceed, hhere] at hcall
      have hgoto : Noticed q (w.goto (.event q' intr .set)) :=
        h.goto rfl rfl rfl (fun _ _ => rfl) id
      exact hgoto.scheduleTo hruns hcall

omit [WaitHeader] [Param] in
theorem enter {call : WaitCall} (h : Noticed q w) : Noticed q (w.enter call) := by
  cases call with
  | waitForCompletion x => exact h.goto rfl rfl rfl (fun _ _ => rfl) id
  | sleepOn q' | interruptibleSleepOn q' => exact h.setState rfl rfl rfl id
  | waitEvent q' | waitEventInterruptible q' =>
    unfold WaitSys.enter
    dsimp only
    split
    · exact h
    · exact h.goto rfl rfl rfl (fun _ _ => rfl) id

omit [WaitHeader] in
/-- **A wake-up** -/
theorem wakes (h : Noticed q w) {mode : UInt32} {sync : Bool} {l : List WaitEntry}
    {nrExclusive : ℤ} (hwakeable : Wakeable l sync w.sys) (hnodup : (l.map (·.task)).Nodup)
    (hcondition : w'.condition = w.condition) (hplace : w'.place = w.place)
    (hsys : w'.sys = w.sys.wakeUpCommon mode sync l nrExclusive) : Noticed q w' := by
  obtain ⟨-, hptrs⟩ := wakeUpCommon_frame mode sync l nrExclusive w.sys
  obtain ⟨pre, suf, -, hwakes⟩ := hwakeable.wakesUp hnodup mode nrExclusive
  refine h.same ?_ hplace ?_ fun t ht => ?_
  · rw [hcondition]
    exact h.holds
  · rw [curr, hsys]
    exact hptrs.curr
  · rw [hsys]
    exact hwakes.toWakes.running ht

/-- **Every step** that does not make the condition false again. -/
theorem step (h : Noticed q w) (hinv : WaitInv w) (hstep : SafeWaitStep w op w')
    (hholds : op ≠ .setCondition q false) : Noticed q w' := by
  obtain ⟨hsafe, hen, hexec⟩ := hstep
  cases op with
  | sched op =>
    obtain ⟨hen, hallows⟩ := hen
    cases schedStep_of_exec hexec with
    | doFork =>
      rcases doFork_cases hen with heq | ⟨hstep, heq⟩
      · rwa [heq]
      · -- the completion of a vfork is no wait queue of an event
        have hcopied := h.sched hinv hstep hallows hsafe
        rw [heq]
        split
        · exact ⟨hcopied.holds, hcopied.here, hcopied.others⟩
        · exact ⟨hcopied.holds, hcopied.here, hcopied.others⟩
    | doForkWake _ hcall =>
      obtain ⟨f, -, s, hs, rfl⟩ := doForkWake_cases hcall
      have hwoken := h.sched hinv ⟨hen, hs⟩ hallows hsafe
      split
      · exact hwoken.goto rfl rfl rfl (fun _ _ => rfl) id
      · exact hwoken
    | vforkReturn =>
      have hreturned := h.sched hinv ⟨hen, rfl⟩ hallows hsafe
      exact hreturned.goto rfl rfl rfl (fun _ _ => rfl) id
    | other _ s hs _ _ => exact h.sched hinv ⟨hen, hs⟩ hallows hsafe
  | enter call =>
    obtain rfl := Option.some.inj hexec
    exact h.enter
  | proceed => exact h.proceed hexec
  | complete x =>
    obtain rfl := Option.some.inj hexec
    have hwakeable : Wakeable (w.completion (.other x)).wait.taskList false w.sys :=
      hinv.wakeable (fun _ hwait => hinv.completion_inside hwait) hsafe.1
    exact h.wakes hwakeable (hinv.completion_tasks _) rfl rfl rfl
  | mmRelease =>
    obtain rfl := Option.some.inj hexec
    rcases mmRelease_cases w with hsame | ⟨p, -, hcomplete⟩
    · rwa [hsame]
    · rw [hcomplete]
      have hwakeable : Wakeable (w.completion (.vfork p)).wait.taskList false w.sys :=
        hinv.wakeable (fun _ hwait => hinv.completion_inside hwait) fun wait _ =>
          forkSafe_of_outside hinv hen.1 _
      exact h.wakes hwakeable (hinv.completion_tasks _) rfl rfl rfl
  | wakeUp q' mode nrExclusive =>
    obtain rfl := Option.some.inj hexec
    -- a wake-up only wakes: who is awake stays awake
    have hwakeable : Wakeable (w.queue q').taskList false w.sys :=
      hinv.wakeable (fun _ hwait => hinv.queue_inside hwait) hsafe
    exact h.wakes hwakeable (hinv.queue_tasks q') rfl rfl rfl
  | wakeUpSync q' mode nrExclusive =>
    obtain rfl := Option.some.inj hexec
    have hwakeable : ∀ sync, Wakeable (w.queue q').taskList sync w.sys := fun sync =>
      hinv.wakeable (fun _ hwait => hinv.queue_inside hwait) hsafe
    unfold wakeUpSync
    split
    · exact h.wakes (hwakeable true) (hinv.queue_tasks q') rfl rfl rfl
    · exact h.wakes (hwakeable false) (hinv.queue_tasks q') rfl rfl rfl
  | setCondition q' holds =>
    obtain rfl := Option.some.inj hexec
    refine h.same ?_ rfl rfl fun _ ht => ht
    dsimp only
    by_cases hq : q = q'
    · subst hq
      rw [Function.update_self]
      cases holds with
      | true => rfl
      -- the condition stays true
      | false => exact absurd rfl hholds
    · rw [Function.update_of_ne hq]
      exact h.holds

end Noticed

/-! ## The wake-up -/

theorem waitsIn_of_anySleep {s : Sys} {mode : UInt32} {wait : WaitEntry}
    (hmode : anySleep &&& mode = anySleep) (h : s.WaitsIn anySleep wait) : s.WaitsIn mode wait := by
  intro hc
  apply h
  rw [← hmode, ← UInt32.and_assoc, UInt32.and_comm _ anySleep, UInt32.and_assoc, hc,
    UInt32.and_zero]

variable [WaitHeader] [Param]

omit [WaitHeader] in
/-- No entry on a wait queue is exclusive, so the wake-up goes through all of them. -/
theorem queue_running (h : WaitInv w) {mode : UInt32} (hmode : anySleep &&& mode = anySleep)
    {sync : Bool} (hwakeable : Wakeable (w.queue q).taskList sync w.sys) (nrExclusive : ℤ)
    (ht : (w.place t).OnQueue q) :
    ((w.sys.wakeUpCommon mode sync (w.queue q).taskList nrExclusive).task t).state = .running := by
  obtain ⟨pre, suf, hq, hwakes⟩ := hwakeable.wakesUp (h.queue_tasks q) mode nrExclusive
  have hall : suf = [] := by
    rcases hwakes.stops with ⟨hnil, -⟩ | ⟨-, wait, hlast, hexclusive, -⟩
    · exact hnil
    · have hmem : wait ∈ (w.queue q).taskList := by
        rw [hq]
        exact List.mem_append_left _ (List.mem_of_mem_getLast? hlast)
      rw [((h.onQueue q wait).mp hmem).1] at hexclusive
      cases hexclusive
  rw [hall, List.append_nil] at hq
  have hmem : (⟨t, false⟩ : WaitEntry) ∈ pre := by
    rw [← hq]
    exact (h.onQueue q _).mpr ⟨rfl, ht⟩
  by_cases hsleeps : w.sys.WaitsIn mode ⟨t, false⟩
  · exact hwakes.state t ⟨_, hmem, rfl, hsleeps⟩
  · have hwaiting := h.waiting t ht.inside
    exact hwakes.toWakes.running
      (hwaiting.running_of_not fun hc => hsleeps (waitsIn_of_anySleep hmode hc))

omit [WaitHeader] in
/-- **The wake-up** of a queue while its condition holds. -/
theorem noticed_of_wakes (h : WaitInv w) (hholds : w.condition q = true) {mode : UInt32}
    (hmode : anySleep &&& mode = anySleep) {sync : Bool}
    (hwakeable : Wakeable (w.queue q).taskList sync w.sys) (nrExclusive : ℤ) :
    Noticed q { w with sys := w.sys.wakeUpCommon mode sync (w.queue q).taskList nrExclusive } := by
  have hcurr : (w.sys.wakeUpCommon mode sync (w.queue q).taskList nrExclusive).rq.curr = w.curr :=
    (wakeUpCommon_frame mode sync _ nrExclusive w.sys).2.curr
  refine ⟨hholds, fun hbehind => ?_, fun t ht hawaits => ?_⟩
  · exact queue_running h hmode hwakeable nrExclusive (hbehind.awaits.onQueue (.inr hbehind))
  · have ht : t ≠ w.curr := by
      rw [← hcurr]
      exact ht
    exact queue_running h hmode hwakeable nrExclusive (hawaits.onQueue (.inl (h.parked t ht)))

end WaitSys
end ShortSched
