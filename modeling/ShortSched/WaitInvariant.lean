import ShortSched.WaitTheorems

/-!
# Where the waiters are

The invariant of the machine with wait queues: the entries on a queue are those of the tasks that
are where such an entry has been added and not removed, every task but `current` is behind its call
of `schedule`, and of the waiters of a completion as many run as `done` can let go.
-/

namespace ShortSched

open General Sys

/-! ## Places -/

namespace Place

/-- `current` may be switched away here. -/
def Parked : Place → Prop
  | outside | completion _ .wake | sleepOn _ true | event _ _ .set => True
  | vforkOut | completion _ .call | completion _ .sleep | sleepOn _ false | event _ _ .add
  | event _ _ .check | event _ _ .signal | event _ _ .sleep | event _ _ .out => False

/-- The task waits, or is about to. -/
def Inside : Place → Prop
  | outside | vforkOut | completion _ .call => False
  | completion _ .sleep | completion _ .wake | sleepOn _ _ | event _ _ _ => True

/-- The task has an entry on the queue of the completion. -/
def OnCompletion (x : CompletionPtr) : Place → Prop
  | completion y .sleep | completion y .wake => y = x
  | outside | vforkOut | completion _ .call | sleepOn _ _ | event _ _ _ => False

/-- The task has an entry on the wait queue. -/
def OnQueue (q : ℕ) : Place → Prop
  | sleepOn q' true => q' = q
  | event _ _ .add => False
  | event q' _ _ => q' = q
  | outside | vforkOut | completion _ _ | sleepOn _ false => False

theorem OnCompletion.inside {x : CompletionPtr} {place : Place} (h : place.OnCompletion x) :
    place.Inside := by
  unfold OnCompletion at h
  split at h <;> first | exact trivial | exact h.elim

theorem OnCompletion.eq {x : CompletionPtr} {place : Place} (h : place.OnCompletion x) :
    ∃ phase, place = .completion x phase := by
  unfold OnCompletion at h
  split at h <;> first | exact ⟨_, congrArg₂ _ h rfl⟩ | exact h.elim

theorem OnQueue.inside {q : ℕ} {place : Place} (h : place.OnQueue q) : place.Inside := by
  unfold OnQueue at h
  split at h <;> first | exact trivial | exact h.elim

theorem OnQueue.not_onCompletion {q : ℕ} {x : CompletionPtr} {place : Place}
    (h : place.OnQueue q) : ¬place.OnCompletion x := by
  unfold OnQueue at h
  split at h <;> first | exact id | exact h.elim

theorem Inside.ne_outside {place : Place} (h : place.Inside) : place ≠ .outside := by
  rintro rfl
  exact h

theorem Parked.inside {place : Place} (h : place.Parked) (hne : place ≠ .outside) :
    place.Inside := by
  unfold Parked at h
  split at h <;> first | exact trivial | exact h.elim | exact absurd rfl hne

end Place

/-! ## The invariant -/

namespace WaitSys

/-- As many waiters run as `done` can let go. -/
def Served (w : WaitSys) (x : CompletionPtr) : Prop :=
  (w.completion x).done.toNat ≤ w.sys.awake (w.completion x).wait.taskList ∨
    w.sys.awake (w.completion x).wait.taskList = (w.completion x).wait.taskList.length

structure WaitInv (w : WaitSys) : Prop where
  fork : ForkInv w.sys
  sleep : w.sys.SleepInv
  listed : ∀ t, w.place t ≠ .outside → t ∈ w.sys.tasklist ∧ t ≠ w.sys.rq.idle
  parked : ∀ t, t ≠ w.curr → (w.place t).Parked
  noFork : w.sys.forking ≠ none → w.here = .outside ∧ w.curr ≠ w.sys.rq.idle
  waiting : ∀ t, (w.place t).Inside → Waiting (w.sys.task t).state
  owner : ∀ t p phase, w.place t = .completion (.vfork p) phase → t = p
  onCompletion : ∀ x wait, wait ∈ (w.completion x).wait.taskList ↔
    wait.exclusive = true ∧ (w.place wait.task).OnCompletion x
  onQueue : ∀ q wait, wait ∈ (w.queue q).taskList ↔
    wait.exclusive = false ∧ (w.place wait.task).OnQueue q
  completionNodup : ∀ x, (w.completion x).wait.taskList.Nodup
  queueNodup : ∀ q, (w.queue q).taskList.Nodup
  served : ∀ x, w.Served x

/-- No task waits. -/
def start (s : Sys) : WaitSys where
  sys := s
  place := fun _ => .outside
  queue := fun _ => WaitQueueHead.init
  condition := fun _ => false
  completion := fun _ => Completion.init
  vforkDone := fun _ => none

variable {w w' : WaitSys} {x : CompletionPtr} {q : ℕ} {t : TaskId}

/-- Nobody waits at the start. -/
theorem waitInv_start {s : Sys} (hfork : ForkInv s) (hsleep : s.SleepInv)
    (hforking : s.forking = none) : WaitInv (start s) where
  fork := hfork
  sleep := hsleep
  listed _ ht := absurd rfl ht
  parked _ _ := trivial
  noFork hf := absurd hforking hf
  waiting _ ht := ht.elim
  owner _ _ _ ht := nomatch ht
  onCompletion _ _ := iff_of_false List.not_mem_nil fun hc => hc.2
  onQueue _ _ := iff_of_false List.not_mem_nil fun hc => hc.2
  completionNodup _ := List.nodup_nil
  queueNodup _ := List.nodup_nil
  served _ := .inr rfl

namespace WaitInv

/-- A task has one entry on a queue at most. -/
theorem nodup_tasks {l : List WaitEntry} (hnodup : l.Nodup) {exclusive : Bool}
    (hexclusive : ∀ wait ∈ l, wait.exclusive = exclusive) : (l.map (·.task)).Nodup := by
  refine List.Nodup.map_on (fun wait hwait wait' hwait' htask => ?_) hnodup
  have hsame := (hexclusive wait hwait).trans (hexclusive wait' hwait').symm
  cases wait
  cases wait'
  simp_all

theorem completion_tasks (h : WaitInv w) (x : CompletionPtr) :
    ((w.completion x).wait.taskList.map (·.task)).Nodup :=
  nodup_tasks (h.completionNodup x) fun wait hwait => ((h.onCompletion x wait).mp hwait).1

theorem queue_tasks (h : WaitInv w) (q : ℕ) : ((w.queue q).taskList.map (·.task)).Nodup :=
  nodup_tasks (h.queueNodup q) fun wait hwait => ((h.onQueue q wait).mp hwait).1

theorem completion_inside (h : WaitInv w) {wait : WaitEntry}
    (hwait : wait ∈ (w.completion x).wait.taskList) : (w.place wait.task).Inside :=
  ((h.onCompletion x wait).mp hwait).2.inside

/-- The waiter of a completion of `vfork` is the parent. -/
theorem eq_of_onCompletion (h : WaitInv w) {p : TaskId}
    (ht : (w.place t).OnCompletion (.vfork p)) : t = p := by
  obtain ⟨phase, hphase⟩ := ht.eq
  exact h.owner t p phase hphase

theorem queue_inside (h : WaitInv w) {wait : WaitEntry}
    (hwait : wait ∈ (w.queue q).taskList) : (w.place wait.task).Inside :=
  ((h.onQueue q wait).mp hwait).2.inside

/-- `current` is in a function that waits: it is a task in process context. -/
theorem inProcess (h : WaitInv w) (hne : w.here ≠ .outside) : Op.InProcess w.sys := by
  refine ⟨?_, (h.listed _ hne).2⟩
  by_contra hc
  exact hne (h.noFork hc).1

/-! ## Changes of the state of tasks -/

/-- The scheduler and wake-ups: no task that waits goes to sleep. -/
theorem sys (h : WaitInv w) {s : Sys} (hfork : ForkInv s) (hsleep : s.SleepInv)
    (hlisted : ∀ t, w.place t ≠ .outside → t ∈ s.tasklist) (hidle : s.rq.idle = w.sys.rq.idle)
    (hcurr : s.rq.curr = w.curr ∨ w.here.Parked ∧ s.forking = none)
    (hforking : s.forking ≠ none →
      w.sys.forking ≠ none ∨ w.here = .outside ∧ w.curr ≠ w.sys.rq.idle)
    (hstate : ∀ t, (w.place t).Inside →
      (s.task t).state = (w.sys.task t).state ∨ (s.task t).state = .running) :
    WaitInv { w with sys := s } where
  fork := hfork
  sleep := hsleep
  listed t ht := by
    refine ⟨hlisted t ht, ?_⟩
    show t ≠ s.rq.idle
    rw [hidle]
    exact (h.listed t ht).2
  parked t ht := by
    have ht : t ≠ s.rq.curr := ht
    rcases hcurr with hsame | ⟨hhere, -⟩
    · rw [hsame] at ht
      exact h.parked t ht
    · by_cases htc : t = w.curr
      · rw [htc]
        exact hhere
      · exact h.parked t htc
  noFork hf := by
    have hf : s.forking ≠ none := hf
    rcases hcurr with hsame | ⟨-, hnone⟩
    · show w.place s.rq.curr = .outside ∧ s.rq.curr ≠ s.rq.idle
      rw [hsame, hidle]
      exact (hforking hf).elim h.noFork id
    · exact absurd hnone hf
  waiting t ht := by
    show Waiting (s.task t).state
    rcases hstate t ht with hsame | hruns
    · rw [hsame]
      exact h.waiting t ht
    · exact .inl hruns
  owner := h.owner
  onCompletion := h.onCompletion
  onQueue := h.onQueue
  completionNodup := h.completionNodup
  queueNodup := h.queueNodup
  served x := by
    -- nobody on the queue goes to sleep
    have hawake : w.sys.awake (w.completion x).wait.taskList ≤
        s.awake (w.completion x).wait.taskList := by
      apply awake_mono
      intro wait hwait hruns
      have hsame := hstate wait.task (h.completion_inside hwait)
      rwa [hruns, or_self] at hsame
    have hle : s.awake (w.completion x).wait.taskList ≤
        (w.completion x).wait.taskList.length := List.countP_le_length
    rcases h.served x with hdone | hall
    · exact .inl (hdone.trans hawake)
    · exact .inr (le_antisymm hle (hall.symm.trans_le hawake))

/-! ## Moves of `current` -/

/-- What `current` changes when it goes on: its own place and state, and its own entries. -/
structure Moves (place : Place) (w w' : WaitSys) : Prop where
  place_eq : w'.place = Function.update w.place w.curr place
  curr : w'.curr = w.curr
  idle : w'.sys.rq.idle = w.sys.rq.idle
  tasklist : w'.sys.tasklist = w.sys.tasklist
  forking : w'.sys.forking = w.sys.forking
  state : ∀ t, t ≠ w.curr → (w'.sys.task t).state = (w.sys.task t).state
  completion : ∀ x wait, wait.task ≠ w.curr →
    (wait ∈ (w'.completion x).wait.taskList ↔ wait ∈ (w.completion x).wait.taskList)
  queue : ∀ q wait, wait.task ≠ w.curr →
    (wait ∈ (w'.queue q).taskList ↔ wait ∈ (w.queue q).taskList)

/-- `current` goes on. -/
theorem move (h : WaitInv w) {place : Place} (hmoves : Moves place w w') (hfork : ForkInv w'.sys)
    (hsleep : w'.sys.SleepInv) (hprocess : Op.InProcess w.sys)
    (hwaiting : place.Inside → Waiting (w'.sys.task w.curr).state)
    (howner : ∀ p phase, place = .completion (.vfork p) phase → w.curr = p)
    (hcompletion : ∀ x wait, wait.task = w.curr →
      (wait ∈ (w'.completion x).wait.taskList ↔ wait.exclusive = true ∧ place.OnCompletion x))
    (hqueue : ∀ q wait, wait.task = w.curr →
      (wait ∈ (w'.queue q).taskList ↔ wait.exclusive = false ∧ place.OnQueue q))
    (hcompletionNodup : ∀ x, (w'.completion x).wait.taskList.Nodup)
    (hqueueNodup : ∀ q, (w'.queue q).taskList.Nodup) (hserved : ∀ x, w'.Served x) :
    WaitInv w' := by
  have hself : w'.place w.curr = place := by
    rw [hmoves.place_eq, Function.update_self]
  have hother : ∀ t, t ≠ w.curr → w'.place t = w.place t := by
    intro t ht
    rw [hmoves.place_eq, Function.update_of_ne ht]
  refine {
    fork := hfork
    sleep := hsleep
    listed := fun t ht => ?listed
    parked := fun t ht => ?parked
    noFork := fun hf => ?noFork
    waiting := fun t ht => ?waiting
    owner := fun t p phase ht => ?owner
    onCompletion := fun x wait => ?onCompletion
    onQueue := fun q wait => ?onQueue
    completionNodup := hcompletionNodup
    queueNodup := hqueueNodup
    served := hserved }
  case listed =>
    -- `current` is queued, hence listed
    rw [hmoves.tasklist, hmoves.idle]
    by_cases htc : t = w.curr
    · subst htc
      have hqueued := h.fork.toRqAgree.current_ne_none hprocess.2
      exact ⟨h.sleep.listed _ hqueued, hprocess.2⟩
    · rw [hother t htc] at ht
      exact h.listed t ht
  case parked =>
    rw [hmoves.curr] at ht
    rw [hother t ht]
    exact h.parked t ht
  case noFork =>
    rw [hmoves.forking] at hf
    exact absurd hprocess.1 hf
  case waiting =>
    by_cases htc : t = w.curr
    · subst htc
      rw [hself] at ht
      exact hwaiting ht
    · rw [hother t htc] at ht
      rw [hmoves.state t htc]
      exact h.waiting t ht
  case owner =>
    by_cases htc : t = w.curr
    · subst htc
      rw [hself] at ht
      exact howner p phase ht
    · rw [hother t htc] at ht
      exact h.owner t p phase ht
  case onCompletion =>
    by_cases htc : wait.task = w.curr
    · rw [hcompletion x wait htc, htc, hself]
    · rw [hmoves.completion x wait htc, h.onCompletion, hother _ htc]
  case onQueue =>
    by_cases htc : wait.task = w.curr
    · rw [hqueue q wait htc, htc, hself]
    · rw [hmoves.queue q wait htc, h.onQueue, hother _ htc]

end WaitInv
end WaitSys
end ShortSched
