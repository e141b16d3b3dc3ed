import ShortSched.General.Runs
import ShortSched.LinkedRunqueue
import ShortSched.YieldTheorems

/-!
# The linked queues refine the lists

`Mirrors` relates a machine with linked queues to the machine whose queues are lists. Reads of the
one agree with reads of the other, and each operation on the queues keeps the two in step, the
recursion of `enqueue_task` included.
-/

namespace ShortSched

open General ListHead Sys

/-- The queues there are. -/
def queueHeads : Set (PrioArrayPtr × ℤ) := { l | 0 ≤ l.2 ∧ l.2 < maxPrio }

/-- The machine `c` with linked queues stands for `s`. -/
structure Mirrors (c : LinkedSys) (s : Sys) : Prop where
  task : c.task = s.task
  rq : c.rq = s.rq.toRqPtrs
  tasklist : c.tasklist = s.tasklist
  nrActive : c.nrActive = s.nrActives
  bitmap : ∀ array k, (array, k) ∈ queueHeads → c.bitmap array k = s.bits (array, k)
  delimiter : ∀ array, c.bitmap array maxPrio = true
  links : Represents queueHeads c.links s.queues

namespace Mirrors

variable {c : LinkedSys} {s s' : Sys} {p : TaskId} {array : PrioArrayPtr} {prio : ℤ}
  {loc : TaskId → Option (PrioArrayPtr × ℤ)} {l : PrioArrayPtr × ℤ}

/-! ## Writes -/

/-- An update of a task, on both levels. -/
theorem modify (h : Mirrors c s) (p : TaskId) (f : Task → Task) :
    Mirrors (c.modify p f) (s.modify p f) where
  task := by rw [LinkedSys.modify, modify_task, h.task]
  rq := h.rq
  tasklist := h.tasklist
  nrActive := h.nrActive
  bitmap := h.bitmap
  delimiter := h.delimiter
  links := h.links

/-- An update of `nr_active`, on both levels. -/
theorem addActive (h : Mirrors c s) (array : PrioArrayPtr) (n : ℤ) :
    Mirrors (c.addActive array n) (s.addActive array n) where
  task := h.task
  rq := h.rq
  tasklist := h.tasklist
  nrActive := by rw [nrActives_addActive, LinkedSys.addActive, h.nrActive]
  bitmap := by
    rw [bits_addActive]
    exact h.bitmap
  delimiter := h.delimiter
  links := by
    rw [queues_addActive]
    exact h.links

/-- A bit below the delimiter, on both levels. -/
theorem setBit (h : Mirrors c s) (hprio : prio ≠ maxPrio) (bit : Bool) (array : PrioArrayPtr) :
    Mirrors (c.setBit prio bit array) (s.setBit prio bit array) where
  task := h.task
  rq := h.rq
  tasklist := h.tasklist
  nrActive := by
    rw [nrActives_setBit]
    exact h.nrActive
  bitmap := by
    intro a k hk
    rw [bits_setBit, LinkedSys.setBit]
    by_cases ha : a = array
    · subst ha
      by_cases hkp : k = prio
      · subst hkp
        simp
      · simp [hkp, h.bitmap a k hk]
    · simp [ha, h.bitmap a k hk]
  delimiter := by
    intro a
    show Function.update c.bitmap array (Function.update (c.bitmap array) prio bit) a maxPrio = true
    by_cases ha : a = array
    · subst ha
      rw [Function.update_self, Function.update_of_ne hprio.symm]
      exact h.delimiter a
    · rw [Function.update_of_ne ha]
      exact h.delimiter a
  links := by
    rw [queues_setBit]
    exact h.links

/-- The queues of the one machine are those of the other after a change of the links. -/
theorem modifyLinks (h : Mirrors c s) (f : Links ListHead → Links ListHead)
    (hlinks : Represents queueHeads (f c.links) s'.queues) (htask : s'.task = s.task)
    (hrq : s'.rq.toRqPtrs = s.rq.toRqPtrs) (htasklist : s'.tasklist = s.tasklist)
    (hactive : s'.nrActives = s.nrActives) (hbits : s'.bits = s.bits) :
    Mirrors (c.modifyLinks f) s' where
  task := h.task.trans htask.symm
  rq := h.rq.trans hrq.symm
  tasklist := h.tasklist.trans htasklist.symm
  nrActive := h.nrActive.trans hactive.symm
  bitmap := by
    rw [hbits]
    exact h.bitmap
  delimiter := h.delimiter
  links := hlinks

theorem listDel (h : Mirrors c s) (hplaced : Placed s.queues loc) (hl : l ∈ queueHeads)
    (hp : loc p = some l) : Mirrors (c.modifyLinks (ListHead.listDel (.inr p))) (s.listDel p) := by
  apply h.modifyLinks
  · rw [queues_listDel]
    exact represents_listDel h.links hplaced hl hp
  all_goals rfl

/-- New links that represent the new contents of one queue. -/
theorem setQueue (h : Mirrors c s) (q : List TaskId) (f : Links ListHead → Links ListHead)
    (hlinks : Represents queueHeads (f c.links) (Function.update s.queues (array, prio) q)) :
    Mirrors (c.modifyLinks f) (s.setQueue array prio q) := by
  apply h.modifyLinks
  · rwa [queues_setQueue]
  · rfl
  · rfl
  · rfl
  · exact nrActives_setQueue _ _ _ _
  · exact bits_setQueue _ _ _ _

theorem listAdd (h : Mirrors c s) (hplaced : Placed s.queues loc)
    (hl : (array, prio) ∈ queueHeads) (hp : loc p = none) :
    Mirrors (c.modifyLinks (ListHead.listAdd (.inr p) (.inl (array, prio))))
      (s.listAdd p array prio) :=
  h.setQueue _ _ (represents_listAdd h.links hplaced hp hl)

theorem listAddTail (h : Mirrors c s) (hplaced : Placed s.queues loc)
    (hl : (array, prio) ∈ queueHeads) (hp : loc p = none) :
    Mirrors (c.modifyLinks (ListHead.listAddTail (.inr p) (.inl (array, prio))))
      (s.listAddTail p array prio) :=
  h.setQueue _ _ (represents_listAddTail h.links hplaced hp hl)

theorem listAddNext (h : Mirrors c s) (hplaced : Placed s.queues loc)
    (hl : (array, prio) ∈ queueHeads) (hp : loc p = none) :
    Mirrors (c.modifyLinks (ListHead.listAdd (.inr p) (c.links.next (.inl (array, prio)))))
      (s.listAddNext p array prio) :=
  h.setQueue _ _ (represents_listAddNext h.links hplaced hp hl)

/-! ## Reads -/

theorem listEmpty_iff (h : Mirrors c s) (hl : (array, prio) ∈ queueHeads) :
    ListEmpty (.inl (array, prio)) c.links ↔ s.queue array prio = [] :=
  h.links.next_eq_head_iff hl

theorem findBit_congr {b b' : ℤ → Bool} {i : ℤ} {n : ℕ}
    (h : ∀ k, i ≤ k → k < i + n → b k = b' k) : findBit b i n = findBit b' i n := by
  induction n generalizing i with
  | zero => rfl
  | succ n ih =>
    rw [findBit, findBit, h i le_rfl (by omega), ih fun k hk hlt => h k (by omega) (by omega)]

/-- With the delimiter set the search needs no test of the limit. -/
theorem findBit_delimiter {b : ℤ → Bool} {i : ℤ} {n : ℕ} (h : b (i + n) = true) :
    findBit b i (n + 1) = findBit b i n := by
  induction n generalizing i with
  | zero =>
    have hi : b i = true := by simpa using h
    exact if_pos hi
  | succ n ih =>
    have hnext : b (i + 1 + n) = true := by
      rw [← h]
      congr 1
      push_cast
      omega
    rw [findBit, ih hnext, findBit]

/-- The delimiter is what `sched_find_first_bit` finds in an empty array. -/
theorem schedFindFirstBit (h : Mirrors c s) (array : PrioArrayPtr) :
    c.schedFindFirstBit array = Sys.schedFindFirstBit (s.rq.arrays array).bitmap := by
  rw [LinkedSys.schedFindFirstBit, findBit_delimiter (n := 140) (by simpa using h.delimiter array)]
  apply findBit_congr
  intro k hk hlt
  exact h.bitmap array k ⟨hk, by simpa using hlt⟩

/-- Both machines pick the same task. -/
theorem firstTask (h : Mirrors c s) (hfirst : (array, c.schedFindFirstBit array) ∈ queueHeads) :
    c.firstTask array = s.firstTask array := by
  rw [LinkedSys.firstTask, h.links.next_head hfirst, h.schedFindFirstBit, Sys.firstTask]
  unfold queues firstNode
  cases s.queue array (Sys.schedFindFirstBit (s.rq.arrays array).bitmap) with
  | nil => rfl
  | cons q qs => rfl

/-! ## `dequeue_task` -/

/-- **`dequeue_task`** of a task that is in the queue of its priority. -/
theorem dequeueTask (h : Mirrors c s) (hplaced : Placed s.queues loc) (hl : l ∈ queueHeads)
    (hp : loc p = some l) (hprio : (array, (s.task p).prio) ∈ queueHeads) :
    Mirrors (c.dequeueTask p array) (s.dequeueTask p array) := by
  have hplaced' : Placed (s.addActive array (-1)).queues loc := by rwa [queues_addActive]
  have hdel := (h.addActive array (-1)).listDel hplaced' hl hp
  have hempty := hdel.listEmpty_iff hprio
  have htask : (c.task p).prio = (s.task p).prio := by rw [h.task]
  have hne : (s.task p).prio ≠ maxPrio := ne_of_lt hprio.2
  unfold LinkedSys.dequeueTask
  rw [dequeueTask_eq]
  dsimp only
  by_cases hc : remove p s.queues (array, (s.task p).prio) = []
  · have hqueue : ((s.addActive array (-1)).listDel p).queue array (s.task p).prio = [] := by
      rwa [← queues_addActive s array (-1)] at hc
    rw [if_pos hc, if_pos]
    · show Mirrors (((c.addActive array (-1)).modifyLinks _).setBit (c.task p).prio false array) _
      rw [htask]
      exact hdel.setBit hne false array
    · show ListEmpty (Sum.inl (array, (c.task p).prio)) _
      rw [htask]
      exact hempty.mpr hqueue
  · have hqueue : ¬((s.addActive array (-1)).listDel p).queue array (s.task p).prio = [] := by
      rwa [← queues_addActive s array (-1)] at hc
    rw [if_neg hc, if_neg]
    · exact hdel
    · show ¬ListEmpty (Sum.inl (array, (c.task p).prio)) _
      rw [htask]
      exact fun hc => hqueue (hempty.mp hc)

/-! ## `enqueue_task` -/

theorem enqueueFinish (h : Mirrors c s) (hprio : (s.task p).prio ≠ maxPrio)
    (array : PrioArrayPtr) : Mirrors (c.enqueueFinish p array) (s.enqueueFinish p array) := by
  have hbit := h.setBit hprio true array
  have hactive := hbit.addActive array 1
  have htask : (c.task p).prio = (s.task p).prio := by rw [h.task]
  rw [LinkedSys.enqueueFinish, htask]
  exact hactive.modify p _

/-- Flags are those of tasks that are linked and have a valid priority. -/
def FlagsLinked (s : Sys) (loc : TaskId → Option (PrioArrayPtr × ℤ)) : Prop :=
  ∀ t, (s.task t).justGotForked ≠ 0 →
    (∃ l ∈ queueHeads, loc t = some l) ∧ 0 ≤ (s.task t).prio ∧ (s.task t).prio < maxPrio

/-- The two machines are in step, and nothing but `p` has been linked since `loc`. -/
structure LinkedOnly (p : TaskId) (loc : TaskId → Option (PrioArrayPtr × ℤ)) (c : LinkedSys)
    (s : Sys) : Prop where
  mirrors : Mirrors c s
  placed : ∃ loc', Placed s.queues loc' ∧ ∀ t, t ≠ p → loc t = none → loc' t = none

/-- **`list_add_tail`** and the bit, for a task that is in no queue. -/
theorem enqueueTail (h : Mirrors c s) (hplaced : Placed s.queues loc) (hp : loc p = none)
    (hprio : (array, (s.task p).prio) ∈ queueHeads) :
    LinkedOnly p loc (c.enqueueTail p array) (s.enqueueTail p array) where
  mirrors := by
    have htask : (c.task p).prio = (s.task p).prio := by rw [h.task]
    rw [LinkedSys.enqueueTail, htask]
    exact (h.listAddTail hplaced hprio hp).enqueueFinish (ne_of_lt hprio.2) array
  placed := by
    refine ⟨Function.update loc p (some (array, (s.task p).prio)), ?_, fun t ht hnone => ?_⟩
    · rw [queues_enqueueTail]
      exact hplaced.insert hp (insertedAt_enqueueBack _ _ _)
    · rwa [Function.update_of_ne ht]

/-- The end of the fork branch: `p` goes to the head of its queue. -/
theorem enqueueHead (h : Mirrors c s) (hplaced : Placed s.queues loc) (hp : loc p = none)
    (hprio : (array, (s.task p).prio) ∈ queueHeads) :
    LinkedOnly p loc
      ((c.modifyLinks (ListHead.listAdd (.inr p) (.inl (array, (c.task p).prio)))).enqueueFinish p
        array)
      ((s.listAdd p array (s.task p).prio).enqueueFinish p array) where
  mirrors := by
    have htask : (c.task p).prio = (s.task p).prio := by rw [h.task]
    rw [htask]
    exact (h.listAdd hplaced hprio hp).enqueueFinish (ne_of_lt hprio.2) array
  placed := by
    refine ⟨Function.update loc p (some (array, (s.task p).prio)), ?_, fun t ht hnone => ?_⟩
    · rw [queues_enqueueFinish, Sys.listAdd, queues_setQueue]
      exact hplaced.insert hp (insertedAt_enqueueFront _ _ _)
    · rwa [Function.update_of_ne ht]

theorem forkBranch_iff (h : Mirrors c s) (p : TaskId) : c.ForkBranch p ↔ s.ForkBranch p := by
  rw [LinkedSys.ForkBranch, Sys.ForkBranch, LinkedSys.current, Sys.current, h.task, h.rq]

/-- The parent of the fork branch: its flag is lowered and it is taken off its queue. -/
def parentOut (parent : TaskId) (array : PrioArrayPtr) (s : Sys) : Sys :=
  (s.modify parent fun t => { t with justGotForked := 0 }).dequeueTask parent array

theorem parentOut_prio (parent t : TaskId) (array : PrioArrayPtr) (s : Sys) :
    ((parentOut parent array s).task t).prio = (s.task t).prio := by
  rw [parentOut, dequeueTask_task]
  exact modify_proj (fun t => t.prio) rfl t

theorem placed_parentOut (hplaced : Placed s.queues loc) (parent : TaskId)
    (array : PrioArrayPtr) :
    Placed (parentOut parent array s).queues (Function.update loc parent none) := by
  rw [parentOut, queues_dequeueTask]
  exact hplaced.remove parent

/-- A parent that is taken out no longer counts as linked. -/
theorem flagsLinked_parentOut (hflags : FlagsLinked s loc) (parent : TaskId)
    (array : PrioArrayPtr) :
    FlagsLinked (parentOut parent array s) (Function.update loc parent none) := by
  intro t ht
  rw [parentOut_prio]
  rw [parentOut, dequeueTask_task, modify_task] at ht
  by_cases htp : t = parent
  · subst htp
    rw [Function.update_self] at ht
    exact absurd rfl ht
  · rw [Function.update_of_ne htp] at ht
    rw [Function.update_of_ne htp]
    exact hflags t ht

/-- `enqueue_task` at any depth of its recursion. -/
theorem enqueueTaskRec (n : ℕ) (h : Mirrors c s) (hplaced : Placed s.queues loc)
    (hp : loc p = none) (hprio : (array, (s.task p).prio) ∈ queueHeads)
    (hflags : FlagsLinked s loc) :
    LinkedOnly p loc (c.enqueueTaskRec n p array) (s.enqueueTaskRec n p array) := by
  induction n generalizing c s p loc with
  | zero => exact h.enqueueTail hplaced hp hprio
  | succ n ih =>
    rw [LinkedSys.enqueueTaskRec, Sys.enqueueTaskRec]
    by_cases hfork : s.ForkBranch p
    · have hparent : (c.task p).pOpptr = (s.task p).pOpptr := by rw [h.task]
      rw [if_pos ((h.forkBranch_iff p).mpr hfork), if_pos hfork]
      dsimp only
      rw [hparent]
      generalize hpar : (s.task p).pOpptr = parent
      obtain ⟨⟨l, hl, hloc⟩, hrange⟩ := hflags parent (hpar ▸ hfork.2.2.2)
      have hne : p ≠ parent := by
        rintro rfl
        rw [hp] at hloc
        cases hloc
      -- the parent is taken off its queue, and the recursive call puts it back
      have hout : Mirrors ((c.modify parent fun t => { t with justGotForked := 0 }).dequeueTask
          parent array) (parentOut parent array s) := by
        refine (h.modify parent _).dequeueTask hplaced hl hloc ?_
        rw [modify_task, Function.update_self]
        exact hrange
      obtain ⟨hback, loc₂, hplaced₂, hothers⟩ := ih hout (placed_parentOut hplaced parent array)
        (Function.update_self _ _ _) (by rwa [parentOut_prio]) (flagsLinked_parentOut hflags _ _)
      have hp₂ : loc₂ p = none := by
        apply hothers p hne
        rwa [Function.update_of_ne hne]
      have hprio₂ : (array, (((parentOut parent array s).enqueueTaskRec n parent array).task
          p).prio) ∈ queueHeads := by
        have hsched := (sameFrame_enqueueTaskRec (parentOut parent array s) parent array n).sched p
        have hsame : (((parentOut parent array s).enqueueTaskRec n parent array).task p).prio =
            ((parentOut parent array s).task p).prio := congrArg TaskSched.prio hsched
        rwa [hsame, parentOut_prio]
      obtain ⟨hmirrors, loc₃, hplaced₃, hothers₃⟩ := hback.enqueueHead hplaced₂ hp₂ hprio₂
      refine ⟨hmirrors, loc₃, hplaced₃, fun t ht hnone => ?_⟩
      have htp : t ≠ parent := by
        rintro rfl
        rw [hnone] at hloc
        cases hloc
      apply hothers₃ t ht
      apply hothers t htp
      rwa [Function.update_of_ne htp]
    · rw [if_neg (fun hc => hfork ((h.forkBranch_iff p).mp hc)), if_neg hfork]
      exact h.enqueueTail hplaced hp hprio

/-! ## `sys_sched_yield` -/

/-- `sys_sched_yield` for a task that is not real-time. -/
theorem yieldTail (h : Mirrors c s) (hplaced : Placed s.queues loc)
    (hloc : loc p = some (array, (s.task p).prio))
    (hl : (array, (s.task p).prio) ∈ queueHeads) :
    Mirrors (c.yieldTail p array) (s.yieldTail p array) := by
  have hdel := h.listDel hplaced hl hloc
  have hplaced' : Placed (s.listDel p).queues (Function.update loc p none) := hplaced.remove p
  have hp : Function.update loc p none p = none := Function.update_self _ _ _
  have htask : (c.task p).prio = (s.task p).prio := by rw [h.task]
  have hne : (s.task p).prio ≠ maxPrio := ne_of_lt hl.2
  unfold LinkedSys.yieldTail Sys.yieldTail
  dsimp only
  rw [htask]
  by_cases hempty : (s.listDel p).queue array (s.task p).prio = []
  · rw [if_neg (not_not.mpr ((hdel.listEmpty_iff hl).mpr hempty)), if_neg (not_not.mpr hempty)]
    -- the queue is empty now; the next priority comes from the bitmap
    have hbit := hdel.setBit hne false array
    rw [hbit.schedFindFirstBit]
    have hub := (findBit_spec
      (((s.listDel p).setBit (s.task p).prio false array).rq.arrays array).bitmap 0 140).2.1
    generalize hfirst : Sys.schedFindFirstBit
      (((s.listDel p).setBit (s.task p).prio false array).rq.arrays array).bitmap = first
    generalize hi : (if first = maxPrio ∨ first ≤ (s.task p).prio then (s.task p).prio
      else first) = i
    have hrange : 0 ≤ i ∧ i < maxPrio := by
      have hmax : maxPrio = 140 := rfl
      have hlo : 0 ≤ (s.task p).prio := hl.1
      unfold Sys.schedFindFirstBit at hfirst
      rw [← hi]
      split
      · exact hl
      · next hc =>
        rw [not_or, not_le] at hc
        omega
    -- bitmap and priority change, the queues do not
    have hplaced₂ : Placed (((s.listDel p).setBit (s.task p).prio false array).modify p fun t =>
        { t with prio := i }).queues (Function.update loc p none) := by
      rwa [queues_modify, queues_setBit]
    exact ((hbit.modify p _).listAddNext hplaced₂ hrange hp).setBit (ne_of_lt hrange.2) true array
  · rw [if_pos fun hc => hempty ((hdel.listEmpty_iff hl).mp hc), if_pos hempty]
    exact hdel.listAddNext hplaced' hl hp

/-- **The moves of `sys_sched_yield`**, on both levels. -/
theorem yieldRequeue (h : Mirrors c s) (hplaced : Placed s.queues loc)
    (harray : s.current.array = some array) (hloc : loc s.rq.curr = some (array, s.current.prio))
    (hl : (array, s.current.prio) ∈ queueHeads) :
    ∃ c' s', c.yieldRequeue = some c' ∧ s.yieldRequeue = some s' ∧ Mirrors c' s' ∧
      ∃ loc', Placed s'.queues loc' := by
  have hcurr : c.rq.curr = s.rq.curr := by rw [h.rq]
  have harray' : (c.task s.rq.curr).array = some array := by rw [h.task, harray]
  have hrt : (c.task s.rq.curr).RtTask ↔ s.current.RtTask := by rw [h.task]
  obtain ⟨s', hs'⟩ := yieldRequeue_of_queued harray
  obtain ⟨a, ha, hframe⟩ := yieldRequeue_eq_some hs'
  obtain ⟨l, hperm, hqueues⟩ := hframe.queues
  -- wherever the task goes, it is on one queue again
  have hplaced₂ : Placed s'.queues (Function.update (Function.update loc s.rq.curr none) s.rq.curr
      (some (a, s.yieldPrio s.rq.curr a))) := by
    rw [hqueues]
    exact (hplaced.remove _).insert (Function.update_self _ _ _) (InsertedAt.of_update hperm)
  unfold LinkedSys.yieldRequeue
  simp only [hcurr, harray', hrt, Option.bind_eq_bind, Option.bind_some]
  have hcall := hs'
  unfold Sys.yieldRequeue at hcall
  simp only [harray, Option.bind_eq_bind, Option.bind_some] at hcall
  by_cases hc : s.current.RtTask
  · rw [if_pos hc] at hcall ⊢
    refine ⟨_, s', rfl, hs', ?_, _, hplaced₂⟩
    rw [← Option.some.inj hcall]
    have hprio : ((c.modifyLinks (ListHead.listDel (.inr s.rq.curr))).task s.rq.curr).prio =
        s.current.prio := by
      rw [LinkedSys.modifyLinks, h.task]
    rw [hprio]
    have hdel := h.listDel hplaced hl hloc
    exact hdel.listAddTail (hplaced.remove s.rq.curr) hl (Function.update_self _ _ _)
  · rw [if_neg hc] at hcall ⊢
    refine ⟨_, s', rfl, hs', ?_, _, hplaced₂⟩
    rw [← Option.some.inj hcall]
    exact h.yieldTail hplaced hloc hl

end Mirrors

end ShortSched
