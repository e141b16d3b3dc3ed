import ShortSched.RunqueueTheorems
import Mathlib.Data.Finset.Image

/-!
# The layout of the four priority arrays

`Layout` says that the redundant views of the queues agree: the `array` and `prio` fields of
the tasks, the bitmaps and the `nr_active` counters. It is the instance of the queue family
library at the levels `PrioArrayPtr × ℤ`. While a task is being moved the layout holds of all
other tasks (`LayoutExcept`); `dequeue_task` leads from the one to the other and
`enqueue_task` back.
-/

namespace ShortSched

open General

/-- The queue a task is linked into, by its own fields. -/
def Task.level (t : Task) : Option (PrioArrayPtr × ℤ) := t.array.map (·, t.prio)

/-- The levels of one array. -/
@[irreducible] def levels (array : PrioArrayPtr) : Finset (PrioArrayPtr × ℤ) :=
  (Finset.range 140).image fun prio : ℕ => (array, (prio : ℤ))

/-- The levels of an array are those of its valid priorities. -/
@[simp] theorem mem_levels {array : PrioArrayPtr} {l : PrioArrayPtr × ℤ} :
    l ∈ levels array ↔ l.1 = array ∧ 0 ≤ l.2 ∧ l.2 < maxPrio := by
  rw [levels, Finset.mem_image]
  constructor
  · rintro ⟨prio, hprio, rfl⟩
    have hlt := Finset.mem_range.mp hprio
    simp only [maxPrio, maxRtPrio, maxUserRtPrio, true_and]
    omega
  · intro h
    refine ⟨l.2.toNat, ?_, Prod.ext h.1.symm (Int.toNat_of_nonneg h.2.1)⟩
    simp only [maxPrio, maxRtPrio, maxUserRtPrio] at h
    rw [Finset.mem_range]
    omega

theorem Task.level_eq_some {t : Task} {l : PrioArrayPtr × ℤ} :
    t.level = some l ↔ t.array = some l.1 ∧ t.prio = l.2 := by
  obtain ⟨a, k⟩ := l
  simp [level]

namespace Sys

/-- All queues, as one family. -/
def queues (s : Sys) : PrioArrayPtr × ℤ → List TaskId := fun l => s.queue l.1 l.2

/-- All bitmaps, as one family. -/
def bits (s : Sys) : PrioArrayPtr × ℤ → Bool := fun l => (s.rq.arrays l.1).bitmap l.2

/-- All counters, as one family. -/
def nrActives (s : Sys) : PrioArrayPtr → ℤ := fun array => (s.rq.arrays array).nrActive

variable (s : Sys) (p : TaskId) (array : PrioArrayPtr) (prio : ℤ)

theorem nrActives_congr {s s' : Sys} (harrays : s'.rq.arrays = s.rq.arrays) :
    s'.nrActives = s.nrActives := by
  unfold nrActives
  rw [harrays]

/-- The arrays are their three views. -/
theorem arrays_ext {s s' : Sys} (hqueues : s'.queues = s.queues) (hbits : s'.bits = s.bits)
    (hactive : s'.nrActives = s.nrActives) : s'.rq.arrays = s.rq.arrays := by
  ext a
  have hq : (s'.rq.arrays a).queue = (s.rq.arrays a).queue := by
    funext k
    exact congrFun hqueues (a, k)
  have hb : (s'.rq.arrays a).bitmap = (s.rq.arrays a).bitmap := by
    ext k
    exact congrFun hbits (a, k)
  have hn : (s'.rq.arrays a).nrActive = (s.rq.arrays a).nrActive := congrFun hactive a
  cases h : s'.rq.arrays a
  cases h' : s.rq.arrays a
  simp_all

/-! ## The three views under the primitives -/

@[simp] theorem queues_modify (f : Task → Task) : (s.modify p f).queues = s.queues := rfl
@[simp] theorem bits_modify (f : Task → Task) : (s.modify p f).bits = s.bits := rfl
@[simp] theorem nrActives_modify (f : Task → Task) : (s.modify p f).nrActives = s.nrActives := rfl

@[simp] theorem queues_listDel : (s.listDel p).queues = remove p s.queues := rfl
@[simp] theorem bits_listDel : (s.listDel p).bits = s.bits := rfl
@[simp] theorem nrActives_listDel : (s.listDel p).nrActives = s.nrActives := rfl

/-- A write to one queue, seen as an update of all of them. -/
@[simp] theorem queues_setQueue (l : List TaskId) :
    (s.setQueue array prio l).queues = Function.update s.queues (array, prio) l := by
  funext ⟨a, k⟩
  by_cases ha : a = array
  · subst ha
    by_cases hk : k = prio
    · subst hk
      simp [queues, queue, setQueue, modifyArray]
    · simp [queues, queue, setQueue, modifyArray, hk]
  · simp [queues, queue, setQueue, modifyArray, ha]

@[simp] theorem bits_setQueue (l : List TaskId) : (s.setQueue array prio l).bits = s.bits := by
  funext ⟨a, k⟩
  by_cases ha : a = array
  · subst ha
    simp [bits, setQueue, modifyArray]
  · simp [bits, setQueue, modifyArray, ha]

@[simp] theorem nrActives_setQueue (l : List TaskId) :
    (s.setQueue array prio l).nrActives = s.nrActives := by
  ext a
  by_cases ha : a = array
  · subst ha
    simp [nrActives, setQueue, modifyArray]
  · simp [nrActives, setQueue, modifyArray, ha]

@[simp] theorem queues_setBit (bit : Bool) : (s.setBit prio bit array).queues = s.queues := by
  funext ⟨a, k⟩
  by_cases ha : a = array
  · subst ha
    simp [queues, queue, setBit, modifyArray]
  · simp [queues, queue, setBit, modifyArray, ha]

/-- A write to one bit. -/
@[simp] theorem bits_setBit (bit : Bool) :
    (s.setBit prio bit array).bits = Function.update s.bits (array, prio) bit := by
  funext ⟨a, k⟩
  by_cases ha : a = array
  · subst ha
    by_cases hk : k = prio
    · subst hk
      simp [bits, setBit, modifyArray]
    · simp [bits, setBit, modifyArray, hk]
  · simp [bits, setBit, modifyArray, ha]

@[simp] theorem nrActives_setBit (bit : Bool) :
    (s.setBit prio bit array).nrActives = s.nrActives := by
  ext a
  by_cases ha : a = array
  · subst ha
    simp [nrActives, setBit, modifyArray]
  · simp [nrActives, setBit, modifyArray, ha]

section counter
variable (n : ℤ)

/-- `array->nr_active += n` -/
abbrev addActive : Sys :=
  s.modifyArray array fun a => { a with nrActive := a.nrActive + n }

@[simp] theorem queues_addActive : (s.addActive array n).queues = s.queues := by
  funext ⟨a, k⟩
  by_cases ha : a = array
  · subst ha
    simp [queues, queue, modifyArray]
  · simp [queues, queue, modifyArray, ha]

@[simp] theorem bits_addActive : (s.addActive array n).bits = s.bits := by
  funext ⟨a, k⟩
  by_cases ha : a = array
  · subst ha
    simp [bits, modifyArray]
  · simp [bits, modifyArray, ha]

@[simp] theorem nrActives_addActive : (s.addActive array n).nrActives =
    Function.update s.nrActives array (s.nrActives array + n) := by
  ext a
  by_cases ha : a = array
  · subst ha
    simp [nrActives, modifyArray]
  · simp [nrActives, modifyArray, ha]

end counter

/-- `dequeue_task` in terms of its primitives. -/
theorem dequeueTask_eq : s.dequeueTask p array =
    if remove p s.queues (array, (s.task p).prio) = [] then
      ((s.addActive array (-1)).listDel p).setBit (s.task p).prio false array
    else (s.addActive array (-1)).listDel p := by
  have h : remove p s.queues (array, (s.task p).prio)
      = ((s.addActive array (-1)).listDel p).queues (array, (s.task p).prio) := by
    rw [queues_listDel, queues_addActive]
  rw [h]
  rfl

@[simp] theorem queues_dequeueTask : (s.dequeueTask p array).queues = remove p s.queues := by
  rw [dequeueTask_eq]
  split <;> simp

@[simp] theorem nrActives_dequeueTask : (s.dequeueTask p array).nrActives =
    Function.update s.nrActives array (s.nrActives array - 1) := by
  rw [dequeueTask_eq]
  split <;> simp [sub_eq_add_neg]

theorem bits_dequeueTask : (s.dequeueTask p array).bits =
    if remove p s.queues (array, (s.task p).prio) = [] then
      Function.update s.bits (array, (s.task p).prio) false
    else s.bits := by
  rw [dequeueTask_eq]
  split <;> simp

@[simp] theorem queues_enqueueFinish : (s.enqueueFinish p array).queues = s.queues :=
  (queues_addActive _ _ 1).trans (queues_setBit _ _ _ _)

@[simp] theorem nrActives_enqueueFinish : (s.enqueueFinish p array).nrActives =
    Function.update s.nrActives array (s.nrActives array + 1) := by
  refine (nrActives_addActive _ _ 1).trans ?_
  rw [nrActives_setBit]

@[simp] theorem bits_enqueueFinish : (s.enqueueFinish p array).bits =
    Function.update s.bits (array, (s.task p).prio) true :=
  (bits_addActive _ _ 1).trans (bits_setBit _ _ _ _)

@[simp] theorem queues_enqueueTail : (s.enqueueTail p array).queues =
    enqueueBack p (array, (s.task p).prio) s.queues := by
  rw [enqueueTail, queues_enqueueFinish, listAddTail, queues_setQueue]
  rfl

/-! ## The layout -/

/-- The views of the queues agree. -/
structure Layout (s : Sys) : Prop where
  /-- a task is queued exactly where its own fields say, and once -/
  placed : Placed s.queues fun t => (s.task t).level
  /-- queued tasks have a valid priority -/
  range : ∀ t, (s.task t).array ≠ none → 0 ≤ (s.task t).prio ∧ (s.task t).prio < maxPrio
  /-- the bit of a queue is set iff the queue is not empty -/
  bitmap : ∀ array, Marked (levels array) s.bits s.queues
  /-- `nr_active` counts the tasks of the array -/
  nrActive : ∀ array, s.nrActives array = count (levels array) s.queues

/-- The layout while `p` is linked nowhere, whatever its `array` field says. -/
def LayoutExcept (p : TaskId) (s : Sys) : Prop :=
  (s.modify p fun t => { t with array := none }).Layout

variable {s p array prio}

namespace Layout

theorem mem_queue (h : s.Layout) {t : TaskId} :
    t ∈ s.queue array prio ↔ (s.task t).array = some array ∧ (s.task t).prio = prio :=
  (h.placed.mem t (array, prio)).trans Task.level_eq_some

/-- Only the arrays and the fields `array` and, of queued tasks, `prio` matter. -/
theorem congr {s' : Sys} (h : s.Layout) (harrays : s'.rq.arrays = s.rq.arrays)
    (harray : ∀ t, (s'.task t).array = (s.task t).array)
    (hprio : ∀ t, (s.task t).array ≠ none → (s'.task t).prio = (s.task t).prio) : s'.Layout := by
  have hqueues : s'.queues = s.queues := by
    ext l
    simp only [queues, queue, harrays]
  have hbits : s'.bits = s.bits := by
    ext l
    simp only [bits, harrays]
  have hlevel : (fun t => (s'.task t).level) = fun t => (s.task t).level := by
    ext t
    by_cases ht : (s.task t).array = none
    · simp [Task.level, harray t, ht]
    · simp [Task.level, harray t, hprio t ht]
  refine ⟨?_, ?_, ?_, ?_⟩
  · rw [hqueues, hlevel]
    exact h.placed
  · intro t ht
    rw [harray t] at ht
    rw [hprio t ht]
    exact h.range t ht
  · rw [hqueues, hbits]
    exact h.bitmap
  · intro array
    rw [hqueues, ← h.nrActive array, nrActives, nrActives, harrays]

/-- A task that is not queued may be left out. -/
theorem toExcept (h : s.Layout) (hp : (s.task p).array = none) : s.LayoutExcept p := by
  refine h.congr rfl ?_ ?_
  · intro t
    by_cases ht : t = p
    · subst ht
      simp [hp]
    · simp [ht]
  · intro t _
    by_cases ht : t = p
    · subst ht
      simp
    · simp [ht]

/-- **`dequeue_task`** from the array that the task is in. -/
theorem dequeueTask (h : s.Layout) (hp : (s.task p).array = some array) :
    (s.dequeueTask p array).LayoutExcept p := by
  have hloc : (s.task p).level = some (array, (s.task p).prio) := Task.level_eq_some.mpr ⟨hp, rfl⟩
  have hlevel : (fun t => (((s.dequeueTask p array).modify p fun t =>
      { t with array := none }).task t).level)
      = Function.update (fun t => (s.task t).level) p none := by
    ext t
    by_cases ht : t = p
    · subst ht
      simp [Task.level]
    · simp [ht]
  refine ⟨?_, ?_, ?_, ?_⟩
  · rw [hlevel, queues_modify, queues_dequeueTask]
    exact h.placed.remove p
  · intro t ht
    by_cases htp : t = p
    · subst htp
      simp at ht
    · simp only [modify_task, dequeueTask_task, Function.update_of_ne htp] at ht ⊢
      exact h.range t ht
  · intro a
    rw [queues_modify, bits_modify, queues_dequeueTask, bits_dequeueTask]
    by_cases ha : a = array
    · refine (h.bitmap a).remove h.placed hloc ?_ ?_
      · split
        · next hnil => simp [hnil]
        · next hne =>
          have hmem : (array, (s.task p).prio) ∈ levels a := by
            simpa [ha] using h.range p (by simp [hp])
          have hqueue : s.queues (array, (s.task p).prio) ≠ [] :=
            List.ne_nil_of_mem ((h.placed.mem p _).mpr hloc)
          simp [hne, ((h.bitmap a) _ hmem).mpr hqueue]
      · intro l hl
        split
        · exact Function.update_of_ne hl _ _
        · rfl
    · intro l hl
      have hne : l ≠ (array, (s.task p).prio) := by
        rintro rfl
        exact ha (mem_levels.mp hl).1.symm
      rw [h.placed.remove_eq hloc hne, ← (h.bitmap a) l hl]
      split
      · rw [Function.update_of_ne hne]
      · rfl
  · intro a
    rw [queues_modify, nrActives_modify, queues_dequeueTask, nrActives_dequeueTask,
      count_remove h.placed hloc]
    by_cases ha : a = array
    · subst ha
      have hmem : (a, (s.task p).prio) ∈ levels a := by
        simpa using h.range p (by simp [hp])
      rw [Function.update_self, h.nrActive, if_pos hmem]
    · have hmem : (array, (s.task p).prio) ∉ levels a := by
        simp [Ne.symm ha]
      rw [Function.update_of_ne ha, h.nrActive, if_neg hmem, sub_zero]

end Layout

namespace LayoutExcept

/-- Of `p` itself nothing matters. -/
theorem congr {s' : Sys} (h : s.LayoutExcept p) (harrays : s'.rq.arrays = s.rq.arrays)
    (harray : ∀ t, t ≠ p → (s'.task t).array = (s.task t).array)
    (hprio : ∀ t, t ≠ p → (s'.task t).prio = (s.task t).prio) : s'.LayoutExcept p := by
  refine Layout.congr h harrays ?_ ?_
  · intro t
    by_cases ht : t = p
    · subst ht
      simp
    · simpa [ht] using harray t ht
  · intro t hne
    by_cases ht : t = p
    · subst ht
      simp at hne
    · simpa [ht] using hprio t ht

theorem modify (h : s.LayoutExcept p) (f : Task → Task) : (s.modify p f).LayoutExcept p :=
  h.congr rfl (fun t ht => by simp [ht]) fun t ht => by simp [ht]

/-- A task that is not queued is left out of nothing. -/
theorem toLayout (h : s.LayoutExcept p) (hp : (s.task p).array = none) : s.Layout := by
  refine Layout.congr h rfl (fun t => ?_) fun t _ => ?_
  · exact (modify_proj (fun t => t.array) hp.symm t).symm
  · exact (modify_proj (fun t => t.prio) rfl t).symm

/-- `p` is in no queue. -/
theorem not_mem (h : s.LayoutExcept p) : p ∉ s.queue array prio := by
  exact h.placed.not_mem (x := p) (by simp [Task.level]) (array, prio)

/-- **The end of `enqueue_task`**, after any insertion of `p` into the queue of its priority. -/
theorem enqueueFinish {l : List TaskId} (h : s.LayoutExcept p)
    (hrange : 0 ≤ (s.task p).prio ∧ (s.task p).prio < maxPrio)
    (hl : l.Perm (p :: s.queue array (s.task p).prio)) :
    ((s.setQueue array (s.task p).prio l).enqueueFinish p array).Layout := by
  have hins : InsertedAt p (array, (s.task p).prio) s.queues
      (Function.update s.queues (array, (s.task p).prio) l) := InsertedAt.of_update hl
  have hlevel : (fun t => (((s.setQueue array (s.task p).prio l).enqueueFinish p array).task
      t).level) = Function.update (fun t => ((s.modify p fun t =>
        { t with array := none }).task t).level) p (some (array, (s.task p).prio)) := by
    ext t
    rw [enqueueFinish_task]
    by_cases ht : t = p
    · subst ht
      simp [Task.level]
      rfl
    · simp [ht]
      rfl
  have hplaced : Placed s.queues _ := h.placed
  have htask : (s.setQueue array (s.task p).prio l).task = s.task := rfl
  refine ⟨?_, ?_, ?_, ?_⟩
  · rw [hlevel, queues_enqueueFinish, queues_setQueue]
    exact hplaced.insert (by simp [Task.level]) hins
  · intro t ht
    rw [enqueueFinish_task, htask] at ht ⊢
    by_cases htp : t = p
    · subst htp
      simpa using hrange
    · simp only [Function.update_of_ne htp] at ht ⊢
      have := h.range t (by simpa [htp] using ht)
      simpa [htp] using this
  · intro a
    rw [queues_enqueueFinish, bits_enqueueFinish, queues_setQueue, bits_setQueue]
    exact (h.bitmap a).insert hins
  · intro a
    have hcount : s.nrActives a = count (levels a) s.queues := h.nrActive a
    rw [queues_enqueueFinish, nrActives_enqueueFinish, queues_setQueue, nrActives_setQueue,
      count_insert hins]
    by_cases ha : a = array
    · subst ha
      have hmem : (a, (s.task p).prio) ∈ levels a := by simpa using hrange
      rw [Function.update_self, hcount, if_pos hmem]
    · have hmem : (array, (s.task p).prio) ∉ levels a := by
        simp [Ne.symm ha]
      rw [Function.update_of_ne ha, hcount, if_neg hmem, add_zero]

/-- **`enqueue_task`** outside its fork branch. -/
theorem enqueueTail (h : s.LayoutExcept p)
    (hrange : 0 ≤ (s.task p).prio ∧ (s.task p).prio < maxPrio) :
    (s.enqueueTail p array).Layout :=
  h.enqueueFinish hrange (List.perm_append_singleton p _)

end LayoutExcept

end Sys
end ShortSched
