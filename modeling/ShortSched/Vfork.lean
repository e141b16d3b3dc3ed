import ShortSched.WaitSteps

/-!
# `vfork`

The completion that a `vfork` parent waits for is a variable on its stack, and its child points to
it with `vfork_done`. The pointer must not outlive the `do_fork` of the parent, and the parent must
not wait for a child that has no pointer any more.
-/

namespace ShortSched

open General Sys

namespace WaitSys

variable {w w' : WaitSys} {c p t : TaskId} {op : Op}

/-- `p` waits in its `do_fork` for its child, or is about to. -/
def WaitsForChild (w : WaitSys) (p : TaskId) : Prop :=
  ∃ phase, w.place p = .completion (.vfork p) phase

/-- `current` is inside `do_fork` with the child `c` and will wait for it. -/
def Vforks (w : WaitSys) (c : TaskId) : Prop :=
  ∃ f, w.sys.forking = some f ∧ f.child = c ∧ f.cloneFlags &&& cloneVfork ≠ 0

structure VforkInv (w : WaitSys) : Prop where
  parent : ∀ c p, w.vforkDone c = some p →
    (w.completion (.vfork p)).done = 0 ∧ (w.WaitsForChild p ∨ p = w.curr ∧ w.Vforks c)
  unique : ∀ c c' p, w.vforkDone c = some p → w.vforkDone c' = some p → c = c'
  alive : ∀ c, w.vforkDone c ≠ none →
    (w.sys.task c).state ≠ .zombie ∧ (c ∈ w.sys.tasklist ∨ w.Vforks c)
  window : ∀ c, w.Vforks c → w.vforkDone c = some w.curr
  released : ∀ p, w.WaitsForChild p →
    (∃ c, w.vforkDone c = some p) ∨ (w.completion (.vfork p)).done = 1

theorem not_vforks (h : w.sys.forking = none) (c : TaskId) : ¬w.Vforks c := by
  rintro ⟨f, hf, -⟩
  rw [h] at hf
  cases hf

/-- A parent that waits is not `current` while `current` is outside. -/
theorem WaitsForChild.ne_curr (h : w.WaitsForChild p) (hhere : w.here = .outside) :
    p ≠ w.curr := by
  rintro rfl
  obtain ⟨phase, hphase⟩ := h
  rw [show w.here = _ from hphase] at hhere
  cases hhere

/-- Nobody waits for a child at the start. -/
theorem vforkInv_start {s : Sys} (hforking : s.forking = none) : VforkInv (start s) where
  parent _ _ hc := nomatch hc
  unique _ _ _ hc := nomatch hc
  alive _ hc := absurd rfl hc
  window c hc := absurd hc (not_vforks hforking c)
  released _ hp := by
    obtain ⟨phase, hphase⟩ := hp
    cases hphase

theorem vforks_congr {s : Sys} (hforking : s.forking = w.sys.forking) :
    ({ w with sys := s } : WaitSys).Vforks c ↔ w.Vforks c := by
  unfold Vforks
  dsimp only
  rw [hforking]

namespace VforkInv

/-- The scheduler and wake-ups, outside of the begin and the end of a fork. -/
theorem sys (h : VforkInv w) {s : Sys}
    (hvforks : ∀ c, ({ w with sys := s } : WaitSys).Vforks c ↔ w.Vforks c)
    (hcurr : w.sys.forking ≠ none → s.rq.curr = w.curr)
    (htasklist : ∀ c, w.vforkDone c ≠ none → c ∈ w.sys.tasklist → c ∈ s.tasklist)
    (hstate : ∀ c, w.vforkDone c ≠ none → (w.sys.task c).state ≠ .zombie →
      (s.task c).state ≠ .zombie) : VforkInv { w with sys := s } := by
  have hsame : ∀ c, w.Vforks c → s.rq.curr = w.curr := by
    rintro c ⟨f, hf, -⟩
    apply hcurr
    rw [hf]
    exact Option.some_ne_none _
  refine {
    parent := fun c p hc => ?parent
    unique := h.unique
    alive := fun c hc => ?alive
    window := fun c hc => ?window
    released := h.released }
  case parent =>
    obtain ⟨hdone, hparent⟩ := h.parent c p hc
    refine ⟨hdone, hparent.imp_right fun ⟨hp, hc⟩ => ⟨?_, (hvforks c).mpr hc⟩⟩
    rw [hp, curr, curr, hsame c hc]
  case alive =>
    obtain ⟨hzombie, hlisted⟩ := h.alive c hc
    exact ⟨hstate c hc hzombie, hlisted.imp (htasklist c hc) (hvforks c).mpr⟩
  case window =>
    have hc := (hvforks c).mp hc
    show w.vforkDone c = some s.rq.curr
    rw [hsame c hc]
    exact h.window c hc

/-- Outside of `do_fork` the parent of every child that has not let it go waits. -/
theorem waits (h : VforkInv w) (hforking : w.sys.forking = none)
    (hc : w.vforkDone c = some p) : w.WaitsForChild p :=
  (h.parent c p hc).2.resolve_right fun hvforks => not_vforks hforking c hvforks.2

theorem listed (h : VforkInv w) (hforking : w.sys.forking = none) (hc : w.vforkDone c ≠ none) :
    c ∈ w.sys.tasklist :=
  (h.alive c hc).2.resolve_right (not_vforks hforking c)

/-- `current` goes on while no fork is pending. -/
theorem move (h : VforkInv w) (hvfork : w'.vforkDone = w.vforkDone)
    (hforking : w.sys.forking = none) (hforking' : w'.sys.forking = none)
    (hstays : ∀ c p, w.vforkDone c = some p → w.WaitsForChild p →
      (w'.completion (.vfork p)).done = (w.completion (.vfork p)).done ∧ w'.WaitsForChild p)
    (hcomes : ∀ p, w'.WaitsForChild p →
      w.WaitsForChild p ∧ (w'.completion (.vfork p)).done = (w.completion (.vfork p)).done)
    (htasklist : w'.sys.tasklist = w.sys.tasklist)
    (hstate : ∀ c, w.vforkDone c ≠ none → (w.sys.task c).state ≠ .zombie →
      (w'.sys.task c).state ≠ .zombie) : VforkInv w' := by
  refine {
    parent := fun c p hc => ?parent
    unique := ?unique
    alive := fun c hc => ?alive
    window := fun c hc => absurd hc (not_vforks hforking' c)
    released := fun p hp => ?released }
  case parent =>
    rw [hvfork] at hc
    obtain ⟨hsame, hwaits⟩ := hstays c p hc (h.waits hforking hc)
    exact ⟨hsame.trans (h.parent c p hc).1, .inl hwaits⟩
  case unique =>
    rw [hvfork]
    exact h.unique
  case alive =>
    rw [hvfork] at hc
    refine ⟨hstate c hc (h.alive c hc).1, .inl ?_⟩
    rw [htasklist]
    exact h.listed hforking hc
  case released =>
    obtain ⟨hwaits, hsame⟩ := hcomes p hp
    rw [hvfork, hsame]
    exact h.released p hwaits

end VforkInv

/-! ## The pieces of the functions that wait -/

/-- Only the task that moves may begin or stop to wait. -/
theorem waitsForChild_goto {place : Place} :
    (w.goto place).WaitsForChild p ↔
      if p = w.curr then ∃ phase, place = .completion (.vfork p) phase else w.WaitsForChild p := by
  unfold WaitsForChild
  by_cases hp : p = w.curr
  · subst hp
    rw [if_pos rfl]
    refine exists_congr fun phase => ?_
    rw [show (w.goto place).place w.curr = place from here_goto place w]
  · rw [if_neg hp]
    refine exists_congr fun phase => ?_
    rw [place_goto_of_ne hp]

/-- What a piece of a function that waits does to the completions of `vfork`. -/
structure Piece (w w' : WaitSys) : Prop where
  vforkDone : w'.vforkDone = w.vforkDone
  lists : SameLists w.sys w'.sys
  zombie : ∀ c, (w.sys.task c).state ≠ .zombie → (w'.sys.task c).state ≠ .zombie
  place : ∀ t, t ≠ w.curr → w'.place t = w.place t
  completion : ∀ x, (∀ phase, w.here ≠ .completion x phase) → w'.completion x = w.completion x
  /-- it leaves a completion only when that is done -/
  here : ∀ x phase, w.here = .completion x phase →
    (∃ phase', w'.place w.curr = .completion x phase') ∧
        (w'.completion x).done = (w.completion x).done ∨
      (w.completion x).done ≠ 0 ∧ (w'.completion x).done = (w.completion x).done - 1 ∧
        w'.place w.curr = x.after
  away : (∀ x phase, w.here ≠ .completion x phase) →
    ∀ p phase, w'.place w.curr ≠ .completion (.vfork p) phase

namespace Piece

/-- `current` goes on to a place where it waits for no child. -/
theorem of_away {place : Place} (hlists : SameLists w.sys w'.sys)
    (hzombie : ∀ c, (w.sys.task c).state ≠ .zombie → (w'.sys.task c).state ≠ .zombie)
    (hvforkDone : w'.vforkDone = w.vforkDone) (hcompletion : w'.completion = w.completion)
    (hplace : w'.place = Function.update w.place w.curr place)
    (hhere : ∀ x phase, w.here ≠ .completion x phase)
    (haway : ∀ p phase, place ≠ .completion (.vfork p) phase) : Piece w w' where
  vforkDone := hvforkDone
  lists := hlists
  zombie := hzombie
  place t ht := by rw [hplace, Function.update_of_ne ht]
  completion x _ := by rw [hcompletion]
  here x phase hc := absurd hc (hhere x phase)
  away _ p phase := by
    rw [hplace, Function.update_self]
    exact haway p phase

/-- `current` goes on in `wait_for_completion`. -/
theorem of_completion {x : CompletionPtr} {phase : CompletionPhase} {place : Place}
    (hhere : w.here = .completion x phase) (hlists : SameLists w.sys w'.sys)
    (hzombie : ∀ c, (w.sys.task c).state ≠ .zombie → (w'.sys.task c).state ≠ .zombie)
    (hvforkDone : w'.vforkDone = w.vforkDone)
    (hcompletion : ∀ y, y ≠ x → w'.completion y = w.completion y)
    (hplace : w'.place = Function.update w.place w.curr place)
    (hend : (∃ phase', place = .completion x phase') ∧
        (w'.completion x).done = (w.completion x).done ∨
      (w.completion x).done ≠ 0 ∧ (w'.completion x).done = (w.completion x).done - 1 ∧
        place = x.after) : Piece w w' where
  vforkDone := hvforkDone
  lists := hlists
  zombie := hzombie
  place t ht := by rw [hplace, Function.update_of_ne ht]
  completion y hy := by
    refine hcompletion y ?_
    rintro rfl
    exact hy phase hhere
  here y phase' hc := by
    rw [hhere] at hc
    obtain ⟨rfl, -⟩ := Place.completion.inj hc
    rw [hplace, Function.update_self]
    exact hend
  away hc := absurd hhere (hc x phase)

/-- A call of `schedule` at the end of the piece. -/
theorem scheduleTo [Param] {u : WaitSys} {place : Place} (h : Piece w (u.goto place))
    (hcall : u.scheduleTo place = some w') : Piece w w' := by
  obtain ⟨s, hs, rfl⟩ := Option.map_eq_some_iff.mp hcall
  have hlists := sameLists_schedule hs
  have hsame : SameLists w.sys u.sys := h.lists
  refine ⟨h.vforkDone, hsame.trans hlists, fun c hc => ?_, h.place, h.completion, h.here, h.away⟩
  have hzombie : (u.sys.task c).state ≠ .zombie := h.zombie c hc
  rcases schedule_state hs c with hstate | hstate
  · rwa [← hstate] at hzombie
  · show (s.task c).state ≠ .zombie
    rw [hstate]
    nofun

end Piece

/-- A task that sets another state than zombie makes no zombie. -/
theorem zombie_setCurrentState {state : TaskState} (hstate : state ≠ .zombie) (c : TaskId)
    (hc : (w.sys.task c).state ≠ .zombie) :
    ((w.setCurrentState state).sys.task c).state ≠ .zombie := by
  obtain ⟨hself, hother⟩ := WaitInv.state_setCurrentState state w
  by_cases hcurr : c = w.curr
  · subst hcurr
    rw [hself]
    exact hstate
  · rw [hother c hcurr]
    exact hc

variable [WaitHeader]

/-- The call takes a completion that is done, or gets in line. -/
theorem piece_waitForCompletion {x : CompletionPtr} (hhere : w.here = .completion x .call) :
    Piece w (w.waitForCompletion x) := by
  unfold waitForCompletion
  dsimp only
  split
  · refine .of_completion hhere ⟨rfl, rfl⟩ (zombie_setCurrentState nofun) rfl
      (fun y hy => completion_of_ne hy _ w) rfl (.inl ⟨⟨_, rfl⟩, ?_⟩)
    show ((w.setCompletion x _).completion x).done = _
    rw [completion_self]
  · next hdone =>
    refine .of_completion hhere ⟨rfl, rfl⟩ (fun _ hc => hc) rfl
      (fun y hy => completion_of_ne hy _ w) rfl (.inr ⟨hdone, ?_, rfl⟩)
    show ((w.setCompletion x _).completion x).done = _
    rw [completion_self]

/-- A waiter that was woken takes the completion, or goes on to sleep. -/
theorem piece_waitForCompletionWoken {x : CompletionPtr} (hhere : w.here = .completion x .wake) :
    Piece w (w.waitForCompletionWoken x) := by
  unfold waitForCompletionWoken
  dsimp only
  split
  · exact .of_completion hhere ⟨rfl, rfl⟩ (zombie_setCurrentState nofun) rfl (fun _ _ => rfl) rfl
      (.inl ⟨⟨_, rfl⟩, rfl⟩)
  · next hdone =>
    refine .of_completion hhere ⟨rfl, rfl⟩ (fun _ hc => hc) rfl
      (fun y hy => completion_of_ne hy _ w) rfl (.inr ⟨hdone, ?_, rfl⟩)
    show ((w.setCompletion x _).completion x).done = _
    rw [completion_self]

variable [Param]

/-- **Every piece** of the functions that wait leaves a completion only when it is done. -/
theorem piece_proceed (hcall : w.proceed = some w') : Piece w w' := by
  have hstay : ∀ c, (w.sys.task c).state ≠ .zombie → (w.sys.task c).state ≠ .zombie :=
    fun _ hc => hc
  have hawake : ∀ c, (w.sys.task c).state ≠ .zombie →
      ((w.setCurrentState .running).sys.task c).state ≠ .zombie := zombie_setCurrentState (by decide)
  cases hhere : w.here with
  | outside | vforkOut =>
    simp only [proceed, hhere] at hcall
    cases hcall
  | sleepOn q slept =>
    have haway : ∀ x phase, w.here ≠ .completion x phase := fun x phase => by
      rw [hhere]
      exact Place.noConfusion
    cases slept with
    | false =>
      simp only [proceed, hhere] at hcall
      refine Piece.scheduleTo ?_ hcall
      exact .of_away ⟨rfl, rfl⟩ hstay rfl rfl rfl haway fun _ _ => Place.noConfusion
    | true =>
      simp only [proceed, hhere] at hcall
      obtain rfl := Option.some.inj hcall
      exact .of_away ⟨rfl, rfl⟩ hstay rfl rfl rfl haway fun _ _ => Place.noConfusion
  | event q intr phase =>
    have haway : ∀ x phase, w.here ≠ .completion x phase := fun x phase => by
      rw [hhere]
      exact Place.noConfusion
    cases phase with
    | add | out =>
      simp only [proceed, hhere] at hcall
      obtain rfl := Option.some.inj hcall
      exact .of_away ⟨rfl, rfl⟩ hstay rfl rfl rfl haway fun _ _ => Place.noConfusion
    | set =>
      simp only [proceed, hhere] at hcall
      obtain rfl := Option.some.inj hcall
      refine .of_away ⟨rfl, rfl⟩ (zombie_setCurrentState ?_) rfl rfl rfl haway
        fun _ _ => Place.noConfusion
      split <;> decide
    | check | signal =>
      simp only [proceed, hhere] at hcall
      split at hcall
      · obtain rfl := Option.some.inj hcall
        exact .of_away ⟨rfl, rfl⟩ hawake rfl rfl rfl haway fun _ _ => Place.noConfusion
      · obtain rfl := Option.some.inj hcall
        exact .of_away ⟨rfl, rfl⟩ hstay rfl rfl rfl haway fun _ _ => Place.noConfusion
    | sleep =>
      simp only [proceed, hhere] at hcall
      refine Piece.scheduleTo ?_ hcall
      exact .of_away ⟨rfl, rfl⟩ hstay rfl rfl rfl haway fun _ _ => Place.noConfusion
  | completion x phase =>
    cases phase with
    | call =>
      simp only [proceed, hhere] at hcall
      obtain rfl := Option.some.inj hcall
      exact piece_waitForCompletion hhere
    | wake =>
      simp only [proceed, hhere] at hcall
      obtain rfl := Option.some.inj hcall
      exact piece_waitForCompletionWoken hhere
    | sleep =>
      simp only [proceed, hhere] at hcall
      refine Piece.scheduleTo ?_ hcall
      exact .of_completion hhere ⟨rfl, rfl⟩ hstay rfl (fun _ _ => rfl) rfl
        (.inl ⟨⟨_, rfl⟩, rfl⟩)

omit [WaitHeader] [Param] in
/-- A function that waits for something else than a child does not touch the completions of `vfork`.
-/
theorem piece_enter {call : WaitCall} (hhere : w.here = .outside) : Piece w (w.enter call) := by
  have haway : ∀ x phase, w.here ≠ .completion x phase := fun x phase => by
    rw [hhere]
    nofun
  have hsame : w.place = Function.update w.place w.curr .outside := by
    rw [← hhere, Function.update_eq_self]
  have hstay : ∀ c, (w.sys.task c).state ≠ .zombie → (w.sys.task c).state ≠ .zombie :=
    fun _ hc => hc
  cases call with
  | waitForCompletion x => exact .of_away ⟨rfl, rfl⟩ hstay rfl rfl rfl haway nofun
  | sleepOn q =>
    exact .of_away ⟨rfl, rfl⟩ (zombie_setCurrentState nofun) rfl rfl rfl haway nofun
  | interruptibleSleepOn q =>
    exact .of_away ⟨rfl, rfl⟩ (zombie_setCurrentState nofun) rfl rfl rfl haway nofun
  | waitEvent q | waitEventInterruptible q =>
    unfold enter
    dsimp only
    split
    · exact .of_away ⟨rfl, rfl⟩ hstay rfl rfl hsame haway nofun
    · exact .of_away ⟨rfl, rfl⟩ hstay rfl rfl rfl haway nofun

/-! ## Steps -/

namespace VforkInv

omit [WaitHeader] [Param] in
/-- **A piece of a function that waits** leaves the parent where it is until its child lets it go. -/
theorem piece (h : VforkInv w) (hinv : WaitInv w) (hpiece : Piece w w')
    (hforking : w.sys.forking = none) : VforkInv w' := by
  have hother : ∀ p, p ≠ w.curr →
      (w'.completion (.vfork p)).done = (w.completion (.vfork p)).done := by
    intro p hp
    rw [hpiece.completion]
    intro phase hhere
    exact hp (hinv.owner _ p phase hhere).symm
  refine h.move hpiece.vforkDone hforking (hpiece.lists.forking.trans hforking)
    (fun c p hc ⟨phase, hphase⟩ => ?_) (fun p ⟨phase, hphase⟩ => ?_) hpiece.lists.tasklist
    fun c _ => hpiece.zombie c
  · by_cases hp : p = w.curr
    · subst hp
      rcases hpiece.here _ phase hphase with ⟨⟨phase', hphase'⟩, hdone⟩ | ⟨hdone, -⟩
      · exact ⟨hdone, phase', hphase'⟩
      · exact absurd (h.parent c _ hc).1 hdone
    · exact ⟨hother p hp, phase, (hpiece.place p hp).trans hphase⟩
  · by_cases hp : p = w.curr
    · subst hp
      by_cases hwaits : ∃ x phase, w.here = .completion x phase
      · obtain ⟨x, phase', hhere⟩ := hwaits
        rcases hpiece.here x phase' hhere with ⟨⟨phase'', hplace⟩, hdone⟩ | ⟨-, -, hafter⟩
        · obtain ⟨rfl, -⟩ := Place.completion.inj (hplace.symm.trans hphase)
          exact ⟨⟨phase', hhere⟩, hdone⟩
        · exact absurd (hafter.symm.trans hphase) ((WaitInv.after_outside x).2.2.2 _ _)
      · push Not at hwaits
        exact absurd hphase (hpiece.away hwaits _ phase)
    · rw [hpiece.place p hp] at hphase
      exact ⟨⟨phase, hphase⟩, hother p hp⟩

omit [WaitHeader] in
/-- A wake-up. -/
theorem wakes (h : VforkInv w) (mode : UInt32) {sync : Bool} {l : List WaitEntry}
    (hwakeable : Wakeable l sync w.sys) (hnodup : (l.map (·.task)).Nodup) (nrExclusive : ℤ) :
    VforkInv { w with sys := w.sys.wakeUpCommon mode sync l nrExclusive } := by
  obtain ⟨hlists, hptrs⟩ := wakeUpCommon_frame mode sync l nrExclusive w.sys
  obtain ⟨pre, suf, -, hwakes⟩ := hwakeable.wakesUp hnodup mode nrExclusive
  refine h.sys (fun _ => vforks_congr hlists.forking) (fun _ => hptrs.curr) (fun c _ hc => ?_)
    fun c _ hc => ?_
  · rwa [hlists.tasklist]
  · by_cases hwoken : ∃ wait ∈ pre, wait.task = c ∧ w.sys.WaitsIn mode wait
    · rw [hwakes.state c hwoken]
      nofun
    · rwa [hwakes.other_state c hwoken]

omit [WaitHeader] in
/-- **A step of the scheduler** other than the begin and the end of a fork. -/
theorem sched (h : VforkInv w) (hinv : WaitInv w) {s : Sys} (hstep : Step w.sys op s)
    (hallows : WaitOp.Allows w op) (hsafe : AwakeSafe w.sys op)
    (hfork : ∀ cloneFlags env, op ≠ .doFork cloneFlags env) (hwake : op ≠ .doForkWake) :
    VforkInv { w with sys := s } := by
  have hlists := step_lists hstep
  have hvforks : ∀ c, ({ w with sys := s } : WaitSys).Vforks c ↔ w.Vforks c := by
    intro c
    cases hlists with
    | same _ hsame => exact vforks_congr hsame.forking
    | doFork cloneFlags env _ _ => exact absurd rfl (hfork cloneFlags env)
    | @doForkSplit f hf _ _ _ hforking =>
      -- the split changes neither the child nor the flags
      unfold Vforks
      dsimp only
      rw [hforking, hf]
      simp only [Option.some.injEq, exists_eq_left']
    | doForkWake _ _ _ => exact absurd rfl hwake
    | schedExit p _ hforking => exact vforks_congr hforking
  refine h.sys hvforks (fun hf => ?_) (fun c hc hmem => ?_) fun c hc hzombie => ?_
  · rcases (step_ptrs hstep).2 with hsame | rfl | rfl
    · exact hsame.curr
    · exact absurd hstep.1 hf
    · exact absurd hstep.1.1 hf
  · cases hlists with
    | same _ hsame => rwa [hsame.tasklist]
    | doFork cloneFlags env _ _ => exact absurd rfl (hfork cloneFlags env)
    | doForkSplit _ _ htasklist _ => rwa [htasklist]
    | doForkWake _ _ _ => exact absurd rfl hwake
    | schedExit p htasklist _ =>
      rw [htasklist, hinv.sleep.nodup.mem_erase_iff]
      -- only a zombie leaves the list, and a child that has not released its parent is none
      refine ⟨?_, hmem⟩
      rintro rfl
      exact (h.alive c hc).1 hstep.1.2.2.2.2.1
  · by_cases hset : c = w.curr ∧ op.SetsState
    · obtain ⟨rfl, hset⟩ := hset
      -- `current` sets its own state: to a sleep, or to zombie after `mm_release`
      cases op <;> first | exact hset.elim | skip
      case doExit reaper => exact absurd hallows.2 hc
      case setCurrentState state =>
        obtain ⟨⟨-, hstate⟩, hexec⟩ := hstep
        obtain rfl := Option.some.inj hexec
        rw [modify_task, Function.update_self]
        exact hstate
    · rw [not_and_or] at hset
      rcases step_state hinv.fork hinv.sleep hstep hsafe (.inr hfork) hset with hstate | hstate
      · rwa [hstate]
      · rw [hstate]
        nofun

end VforkInv

/-! ## The begin of a fork -/

namespace WaitInv

omit [WaitHeader] [Param] in
theorem setVforkDone (h : WaitInv w) (vforkDone : TaskId → Option TaskId) :
    WaitInv { w with vforkDone := vforkDone } :=
  ⟨h.fork, h.sleep, h.listed, h.parked, h.noFork, h.waiting, h.owner, h.onCompletion, h.onQueue,
    h.completionNodup, h.queueNodup, h.served⟩

omit [WaitHeader] [Param] in
/-- `init_completion` when nobody waits. -/
theorem initCompletion {x : CompletionPtr} (h : WaitInv w)
    (hfree : ∀ t, ¬(w.place t).OnCompletion x) : WaitInv (w.setCompletion x Completion.init) := by
  refine ⟨h.fork, h.sleep, h.listed, h.parked, h.noFork, h.waiting, h.owner, fun y wait => ?_,
    h.onQueue, fun y => ?_, h.queueNodup, fun y => ?_⟩
  · by_cases hy : y = x
    · subst hy
      rw [completion_self]
      exact iff_of_false List.not_mem_nil fun hc => hfree _ hc.2
    · rw [completion_of_ne hy]
      exact h.onCompletion y wait
  · by_cases hy : y = x
    · subst hy
      rw [completion_self]
      exact List.nodup_nil
    · rw [completion_of_ne hy]
      exact h.completionNodup y
  · unfold Served
    by_cases hy : y = x
    · subst hy
      rw [completion_self]
      exact .inr rfl
    · rw [completion_of_ne hy]
      exact h.served y

omit [WaitHeader] [Param] in
/-- Nobody but `current` waits for the child of `current`. -/
theorem free_of_outside (h : WaitInv w) (hhere : w.here = .outside) (t : TaskId) :
    ¬(w.place t).OnCompletion (.vfork w.curr) := by
  intro hon
  obtain rfl := h.eq_of_onCompletion hon
  rw [show w.place w.curr = .outside from hhere] at hon
  exact hon

end WaitInv

variable {cloneFlags : UInt32} {env : ForkEnv}

omit [WaitHeader] in
/-- A `do_fork` that fails leaves the machine alone. -/
theorem doFork_cases (hen : (Op.doFork cloneFlags env).Enabled w.sys) :
    w.doFork cloneFlags env = w ∨
      Step w.sys (.doFork cloneFlags env) (w.sys.copied cloneFlags env) ∧
      w.doFork cloneFlags env = if cloneFlags &&& cloneVfork ≠ 0 then
          { { w with sys := w.sys.copied cloneFlags env }.setCompletion (.vfork w.curr)
              Completion.init with
            vforkDone := Function.update w.vforkDone env.child (some w.curr) }
        else
          { w with
            sys := w.sys.copied cloneFlags env
            vforkDone := Function.update w.vforkDone env.child none } := by
  unfold WaitSys.doFork
  rcases Sys.doFork_cases cloneFlags env w.sys with ⟨-, hsame⟩ | ⟨-, hcopied⟩
  · left
    rw [hsame, if_pos hen.1.1]
  · right
    rw [hcopied]
    refine ⟨⟨hen, ?_⟩, if_neg (Option.some_ne_none _)⟩
    rw [Op.exec, hcopied]

omit [WaitHeader] in
/-- **`do_fork`** up to `copy_thread`. -/
theorem WaitInv.doFork (h : WaitInv w)
    (hen : (WaitOp.sched (.doFork cloneFlags env)).Enabled w) :
    WaitInv (w.doFork cloneFlags env) := by
  obtain ⟨hfork, hhere⟩ := hen
  rcases doFork_cases hfork with heq | ⟨hstep, heq⟩
  · rwa [heq]
  · have hcopied := h.sched hstep hhere ⟨trivial, fun hc => absurd hc Bool.false_ne_true⟩
    rw [heq]
    split
    · exact (hcopied.initCompletion (h.free_of_outside hhere)).setVforkDone _
    · exact hcopied.setVforkDone _

/-- What the copy does to the completions of `vfork`: the child points to its parent, or to
nobody. -/
structure Copies (w : WaitSys) (cloneFlags : UInt32) (env : ForkEnv) (w' : WaitSys) : Prop where
  hsys : w'.sys = w.sys.copied cloneFlags env
  place : w'.place = w.place
  child : ∀ p, w'.vforkDone env.child = some p ↔ cloneFlags &&& cloneVfork ≠ 0 ∧ p = w.curr
  other : ∀ c, c ≠ env.child → w'.vforkDone c = w.vforkDone c
  completion : ∀ p, p ≠ w.curr → w'.completion (.vfork p) = w.completion (.vfork p)
  zero : cloneFlags &&& cloneVfork ≠ 0 → (w'.completion (.vfork w.curr)).done = 0

namespace Copies

omit [WaitHeader] [Param] in
theorem forking (h : Copies w cloneFlags env w') :
    w'.sys.forking = some ⟨env.child, cloneFlags, false⟩ := by
  rw [h.hsys]
  rfl

omit [WaitHeader] [Param] in
theorem curr (h : Copies w cloneFlags env w') : w'.curr = w.curr := by
  rw [WaitSys.curr, h.hsys]
  rfl

omit [WaitHeader] [Param] in
theorem waitsForChild_iff (h : Copies w cloneFlags env w') :
    w'.WaitsForChild p ↔ w.WaitsForChild p := by
  rw [WaitsForChild, WaitsForChild, h.place]

omit [WaitHeader] [Param] in
theorem vforks_child (h : Copies w cloneFlags env w') (hv : cloneFlags &&& cloneVfork ≠ 0) :
    w'.Vforks env.child := ⟨_, h.forking, rfl, hv⟩

omit [WaitHeader] [Param] in
/-- **The copy** keeps the law of `vfork`. -/
theorem vforkInv (hcopies : Copies w cloneFlags env w') (h : VforkInv w) (hhere : w.here = .outside)
    (hforking : w.sys.forking = none) (hfresh : Op.FreshTask w.sys env.child) : VforkInv w' := by
  refine {
    parent := fun c p hc => ?parent
    unique := fun c c' p hc hc' => ?unique
    alive := fun c hc => ?alive
    window := fun c hc => ?window
    released := fun p hp => ?released }
  case parent =>
    by_cases hchild : c = env.child
    · subst hchild
      obtain ⟨hv, rfl⟩ := (hcopies.child p).mp hc
      exact ⟨hcopies.zero hv, .inr ⟨hcopies.curr.symm, hcopies.vforks_child hv⟩⟩
    · rw [hcopies.other c hchild] at hc
      have hwaits := h.waits hforking hc
      rw [hcopies.completion p (hwaits.ne_curr hhere), hcopies.waitsForChild_iff]
      exact ⟨(h.parent c p hc).1, .inl hwaits⟩
  case unique =>
    by_cases hchild : c = env.child
    · subst hchild
      obtain ⟨-, rfl⟩ := (hcopies.child p).mp hc
      by_contra hne
      rw [hcopies.other c' (Ne.symm hne)] at hc'
      exact (h.waits hforking hc').ne_curr hhere rfl
    · rw [hcopies.other c hchild] at hc
      by_cases hchild' : c' = env.child
      · subst hchild'
        obtain ⟨-, rfl⟩ := (hcopies.child p).mp hc'
        exact absurd rfl ((h.waits hforking hc).ne_curr hhere)
      · rw [hcopies.other c' hchild'] at hc'
        exact h.unique c c' p hc hc'
  case alive =>
    rw [hcopies.hsys]
    by_cases hchild : c = env.child
    · subst hchild
      obtain ⟨p, hp⟩ := Option.ne_none_iff_exists'.mp hc
      refine ⟨?_, .inr (hcopies.vforks_child ((hcopies.child p).mp hp).1)⟩
      rw [copied_child]
      exact nofun
    · rw [hcopies.other c hchild] at hc
      refine ⟨?_, .inl (h.listed hforking hc)⟩
      rw [copied_of_ne hchild]
      exact (h.alive c hc).1
  case window =>
    obtain ⟨f, hf, rfl, hv⟩ := hc
    rw [hcopies.forking] at hf
    obtain rfl := Option.some.inj hf
    rw [hcopies.curr]
    exact (hcopies.child _).mpr ⟨hv, rfl⟩
  case released =>
    rw [hcopies.waitsForChild_iff] at hp
    rw [hcopies.completion p (hp.ne_curr hhere)]
    refine (h.released p hp).imp_left fun ⟨c, hc⟩ => ⟨c, ?_⟩
    rw [hcopies.other]
    · exact hc
    · rintro rfl
      refine hfresh.not_listed (h.listed hforking ?_)
      rw [hc]
      exact Option.some_ne_none _

end Copies

omit [WaitHeader] in
/-- The parent of a `CLONE_VFORK` child is inside `do_fork` when the child points to it. -/
theorem VforkInv.doFork (h : VforkInv w)
    (hen : (WaitOp.sched (.doFork cloneFlags env)).Enabled w) :
    VforkInv (w.doFork cloneFlags env) := by
  obtain ⟨hfork, hhere⟩ := hen
  rcases doFork_cases hfork with heq | ⟨-, heq⟩
  · rwa [heq]
  suffices hcopies : Copies w cloneFlags env (w.doFork cloneFlags env) from
    hcopies.vforkInv h hhere hfork.1.1 hfork.2
  rw [heq]
  split
  · next hv =>
    refine ⟨rfl, rfl, fun p => ?_, fun c hc => Function.update_of_ne hc _ _, fun p hp => ?_,
      fun _ => ?_⟩
    · dsimp only
      rw [Function.update_self, Option.some.injEq, eq_comm, and_iff_right hv]
    · exact completion_of_ne (fun hc => hp (CompletionPtr.vfork.inj hc)) _ _
    · show ((setCompletion _ _ _).completion _).done = 0
      rw [completion_self]
      rfl
  · next hv =>
    refine ⟨rfl, rfl, fun p => ?_, fun c hc => Function.update_of_ne hc _ _, fun _ _ => rfl,
      fun hc => absurd hc hv⟩
    dsimp only
    rw [Function.update_self]
    exact iff_of_false nofun fun hc => hv hc.1

/-! ## The end of a fork -/

omit [WaitHeader] in
theorem doForkWake_cases (hcall : w.doForkWake = some w') : ∃ f, w.sys.forking = some f ∧
    ∃ s, w.sys.doForkWake = some s ∧ w' = if f.cloneFlags &&& cloneVfork ≠ 0 then
      { w with sys := s }.goto (.completion (.vfork w.curr) .call) else { w with sys := s } := by
  obtain ⟨f, hf, hrest⟩ := Option.bind_eq_some_iff.mp hcall
  obtain ⟨s, hs, hw'⟩ := Option.bind_eq_some_iff.mp hrest
  exact ⟨f, hf, s, hs, (Option.some.inj hw').symm⟩

omit [WaitHeader] in
/-- **`do_fork`** from `__restore_flags` on. -/
theorem WaitInv.doForkWake (h : WaitInv w) (hen : (WaitOp.sched .doForkWake).Enabled w)
    (hsafe : AwakeSafe w.sys .doForkWake) (hcall : w.doForkWake = some w') : WaitInv w' := by
  obtain ⟨hfork, hhere⟩ := hen
  have hhere : w.here = .outside := hhere
  obtain ⟨f, hf, s, hs, rfl⟩ := doForkWake_cases hcall
  have hstep : Step w.sys .doForkWake s := ⟨hfork, hs⟩
  have hwoken := h.sched hstep hhere hsafe
  have hcurr : s.rq.curr = w.curr := (samePtrs_doForkWake hs).curr
  split
  -- without `CLONE_VFORK` the parent does not wait
  swap
  · exact hwoken
  have hplace : ({ w with sys := s } : WaitSys).here = .outside := by
    show w.place s.rq.curr = _
    rw [hcurr]
    exact hhere
  obtain ⟨-, -, -, hforking⟩ := doForkWake_lists hs
  refine hwoken.goto ⟨hforking, ?_⟩ (fun hc => hc.elim) (fun p phase hc => ?_) (fun x => ?_)
    fun q => ?_
  · show s.rq.curr ≠ s.rq.idle
    rw [hcurr, step_idle hstep]
    refine (h.noFork ?_).2
    rw [hf]
    exact Option.some_ne_none _
  · obtain ⟨hp, -⟩ := Place.completion.inj hc
    exact hcurr.trans (CompletionPtr.vfork.inj hp)
  · rw [hplace]
    exact Iff.rfl
  · rw [hplace]
    exact Iff.rfl

omit [WaitHeader] in
/-- **`do_fork`** from `__restore_flags` on: the parent waits from then on if it is to. -/
theorem VforkInv.doForkWake (h : VforkInv w) (hen : (WaitOp.sched .doForkWake).Enabled w)
    (hcall : w.doForkWake = some w') : VforkInv w' := by
  obtain ⟨hfork, hhere⟩ := hen
  have hhere : w.here = .outside := hhere
  obtain ⟨f, hf, s, hs, rfl⟩ := doForkWake_cases hcall
  have hcurr : s.rq.curr = w.curr := (samePtrs_doForkWake hs).curr
  obtain ⟨f', hf', htasklist, hforking⟩ := doForkWake_lists hs
  obtain rfl : f = f' := Option.some.inj (hf.symm.trans hf')
  have hstate : ∀ c, (s.task c).state = .running ∨ (s.task c).state = (w.sys.task c).state := by
    obtain ⟨f', hf', rfl⟩ := Sys.doForkWake_eq_some hs
    intro c
    rw [forkFinish_state]
    split
    · exact .inl rfl
    · exact .inr rfl
  have hvforks : ∀ c, w.Vforks c → f.child = c ∧ f.cloneFlags &&& cloneVfork ≠ 0 := by
    rintro c ⟨f', hf', hchild⟩
    obtain rfl := Option.some.inj (hf.symm.trans hf')
    exact hchild
  set w' := if f.cloneFlags &&& cloneVfork ≠ 0 then
    { w with sys := s }.goto (.completion (.vfork w.curr) .call) else { w with sys := s } with hw'
  have hsys : w'.sys = s := by
    rw [hw']
    split <;> rfl
  have hdone : w'.vforkDone = w.vforkDone ∧ w'.completion = w.completion := by
    rw [hw']
    split <;> exact ⟨rfl, rfl⟩
  have hnone : ∀ c, ¬w'.Vforks c := not_vforks (by rw [hsys, hforking])
  have hwaits : ∀ p, w'.WaitsForChild p ↔
      w.WaitsForChild p ∨ f.cloneFlags &&& cloneVfork ≠ 0 ∧ p = w.curr := by
    intro p
    rw [hw']
    split
    · next hv =>
      have hgoto : ({ w with sys := s } : WaitSys).curr = w.curr := hcurr
      rw [waitsForChild_goto, hgoto]
      by_cases hp : p = w.curr
      · rw [if_pos hp, hp]
        exact iff_of_true ⟨_, rfl⟩ (.inr ⟨hv, rfl⟩)
      · rw [if_neg hp]
        exact (or_iff_left fun hc => hp hc.2).symm
    · next hv => exact (or_iff_left fun hc => hv hc.1).symm
  refine {
    parent := fun c p hc => ?parent
    unique := ?unique
    alive := fun c hc => ?alive
    window := fun c hc => absurd hc (hnone c)
    released := fun p hp => ?released }
  case parent =>
    rw [hdone.1] at hc
    obtain ⟨hzero, hparent⟩ := h.parent c p hc
    rw [hdone.2, hwaits]
    -- a parent that was still in `do_fork` now waits
    exact ⟨hzero, .inl (hparent.imp_right fun hc => ⟨(hvforks c hc.2).2, hc.1⟩)⟩
  case unique =>
    rw [hdone.1]
    exact h.unique
  case alive =>
    rw [hdone.1] at hc
    obtain ⟨hzombie, hlisted⟩ := h.alive c hc
    rw [hsys, htasklist, List.mem_append, List.mem_singleton]
    refine ⟨?_, .inl (hlisted.imp_right ?_)⟩
    · rcases hstate c with hruns | hsame
      · rw [hruns]
        nofun
      · rwa [hsame]
    · exact fun hc => (hvforks c hc).1.symm
  case released =>
    rw [hdone.1, hdone.2]
    rcases (hwaits p).mp hp with hp | ⟨hv, rfl⟩
    · exact h.released p hp
    · -- the child that the parent has just made has not released it
      exact .inl ⟨f.child, h.window f.child ⟨f, hf, rfl, hv⟩⟩

end WaitSys
end ShortSched
