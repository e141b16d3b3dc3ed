import ShortSched.General.LinkedLists
import ShortSched.Layout

/-!
# `list.h` and the queues as linked lists

`Runqueue.lean` keeps `array->queue[prio]` as a list. Here the queues are what they are in the
source: `list_head`s in the arrays and in the tasks, linked in a circle. `dequeue_task`,
`enqueue_task`, `sys_sched_yield` and the end of `schedule` follow the pointers, and `sched_init`
sets them up.
-/

namespace ShortSched

open General

/-! ## `list.h` -/

namespace ListHead

variable {N : Type*} [DecidableEq N]

/-- `INIT_LIST_HEAD` -/
def initListHead (ptr : N) (h : Links N) : Links N := (h.setNext ptr ptr).setPrev ptr ptr

/-- `__list_add` -/
def listAddBetween (new prev next : N) (h : Links N) : Links N :=
  (((h.setPrev next new).setNext new next).setPrev new prev).setNext prev new

/-- `list_add` -/
def listAdd (new head : N) (h : Links N) : Links N := listAddBetween new head (h.next head) h

/-- `list_add_tail` -/
def listAddTail (new head : N) (h : Links N) : Links N := listAddBetween new (h.prev head) head h

/-- `__list_del` -/
def listDelBetween (prev next : N) (h : Links N) : Links N :=
  (h.setPrev next prev).setNext prev next

/-- `list_del` -/
def listDel (entry : N) (h : Links N) : Links N := listDelBetween (h.prev entry) (h.next entry) h

/-- `list_empty` -/
abbrev ListEmpty (head : N) (h : Links N) : Prop := h.next head = head

end ListHead

open ListHead

/-- A `list_t`: the head of a queue, or the `run_list` of a task. -/
abbrev ListHead := (PrioArrayPtr × ℤ) ⊕ TaskId

/-- The machine with linked queues. The fields of the four `struct prio_array` are functions of
the array. -/
structure LinkedSys where
  task : TaskId → Task
  rq : RqPtrs
  nrActive : PrioArrayPtr → ℤ
  /-- with the delimiter bit `MAX_PRIO` -/
  bitmap : PrioArrayPtr → ℤ → Bool
  links : Links ListHead
  tasklist : List TaskId

namespace LinkedSys

abbrev current (s : LinkedSys) : Task := s.task s.rq.curr

def modify (p : TaskId) (f : Task → Task) (s : LinkedSys) : LinkedSys :=
  { s with task := Function.update s.task p (f (s.task p)) }

def modifyLinks (f : Links ListHead → Links ListHead) (s : LinkedSys) : LinkedSys :=
  { s with links := f s.links }

/-- `array->nr_active += n` -/
def addActive (array : PrioArrayPtr) (n : ℤ) (s : LinkedSys) : LinkedSys :=
  { s with nrActive := Function.update s.nrActive array (s.nrActive array + n) }

/-- `__set_bit` and `__clear_bit` -/
def setBit (prio : ℤ) (bit : Bool) (array : PrioArrayPtr) (s : LinkedSys) : LinkedSys :=
  { s with
    bitmap := Function.update s.bitmap array (Function.update (s.bitmap array) prio bit) }

/-- `sched_find_first_bit` over all the bits there are: the delimiter is one of them. -/
def schedFindFirstBit (array : PrioArrayPtr) (s : LinkedSys) : ℤ :=
  Sys.findBit (s.bitmap array) 0 141

/-- `dequeue_task` -/
def dequeueTask (p : TaskId) (array : PrioArrayPtr) (s : LinkedSys) : LinkedSys :=
  let s := s.addActive array (-1)
  let s := s.modifyLinks (listDel (.inr p))
  if ListEmpty (.inl (array, (s.task p).prio)) s.links then s.setBit (s.task p).prio false array
  else s

/-- The test at the head of `enqueue_task`. -/
abbrev ForkBranch (s : LinkedSys) (p : TaskId) : Prop :=
  s.current.policy = .short ∧ s.current.justGotForked ≠ 0 ∧
    (s.task p).iAmOverdue = 0 ∧ (s.task (s.task p).pOpptr).justGotForked ≠ 0

/-- The statements of `enqueue_task` after its `if`. -/
def enqueueFinish (p : TaskId) (array : PrioArrayPtr) (s : LinkedSys) : LinkedSys :=
  let s := s.setBit (s.task p).prio true array
  let s := s.addActive array 1
  s.modify p fun t => { t with array := some array }

def enqueueTail (p : TaskId) (array : PrioArrayPtr) (s : LinkedSys) : LinkedSys :=
  (s.modifyLinks (listAddTail (.inr p) (.inl (array, (s.task p).prio)))).enqueueFinish p array

/-- `enqueue_task` with a bound on the depth of its recursion. -/
def enqueueTaskRec : ℕ → TaskId → PrioArrayPtr → LinkedSys → LinkedSys
  | 0, p, array, s => s.enqueueTail p array
  | n + 1, p, array, s =>
    if s.ForkBranch p then
      let parent := (s.task p).pOpptr
      let s := s.modify parent fun t => { t with justGotForked := 0 }
      let s := s.dequeueTask parent array
      let s := enqueueTaskRec n parent array s
      (s.modifyLinks (listAdd (.inr p) (.inl (array, (s.task p).prio)))).enqueueFinish p array
    else s.enqueueTail p array

/-- `enqueue_task` -/
def enqueueTask (p : TaskId) (array : PrioArrayPtr) (s : LinkedSys) : LinkedSys :=
  s.enqueueTaskRec s.tasklist.length p array

/-- `sys_sched_yield` for a task that is not real-time. -/
def yieldTail (curr : TaskId) (array : PrioArrayPtr) (s : LinkedSys) : LinkedSys :=
  let prio := (s.task curr).prio
  let s := s.modifyLinks (listDel (.inr curr))
  if ¬ListEmpty (.inl (array, prio)) s.links then
    s.modifyLinks (listAdd (.inr curr) (s.links.next (.inl (array, prio))))
  else
    -- alone in its queue: it leaves it, and goes second into the next one that is behind
    let s := s.setBit prio false array
    let i := s.schedFindFirstBit array
    let i := if i = maxPrio ∨ i ≤ prio then prio else i
    let s := s.modify curr fun t => { t with prio := i }
    let s := s.modifyLinks (listAdd (.inr curr) (s.links.next (.inl (array, i))))
    s.setBit i true array

/-- `sys_sched_yield` up to its call of `schedule`. -/
def yieldRequeue (s : LinkedSys) : Option LinkedSys := do
  let curr := s.rq.curr
  let array ← (s.task curr).array
  if (s.task curr).RtTask then
    let s := s.modifyLinks (listDel (.inr curr))
    return s.modifyLinks (listAddTail (.inr curr) (.inl (array, (s.task curr).prio)))
  else return s.yieldTail curr array

/-- `schedule` at `move_on`: the task of the first entry of the best queue, if the entry is that
of a task. -/
def firstTask (array : PrioArrayPtr) (s : LinkedSys) : Option TaskId :=
  match s.links.next (.inl (array, s.schedFindFirstBit array)) with
  | .inl _ => none
  | .inr p => some p

/-- One round of the inner loops of `sched_init`. -/
def initQueue (array : PrioArrayPtr) (k : ℕ) (s : LinkedSys) : LinkedSys :=
  (s.modifyLinks (initListHead (.inl (array, k)))).setBit k false array

/-- One round of the outer loops of `sched_init`. -/
def initArray (s : LinkedSys) (array : PrioArrayPtr) : LinkedSys :=
  let s := (List.range 140).foldl (fun s k => s.initQueue array k) s
  s.setBit maxPrio true array

/-- The loops of `sched_init` over the arrays of one runqueue. -/
def initArrays (s : LinkedSys) : LinkedSys :=
  [PrioArrayPtr.arrays0, .arrays1, .shortArrays0, .shortArrays1].foldl initArray s

end LinkedSys

/-! ## What the operations of `list.h` write -/

namespace ListHead

variable {N : Type*} [DecidableEq N] {h : Links N} {a b x : N}

theorem inserted_listAddBetween (ha : a ≠ x) (hb : b ≠ x) :
    Links.Inserted x a b h (listAddBetween x a b h) where
  before := by simp [listAddBetween, Links.Linked]
  after := by simp [listAddBetween, Links.Linked, ha.symm, hb]
  next n hna hnx := by simp [listAddBetween, hna, hnx]
  prev n hnb hnx := by simp [listAddBetween, hnb, hnx]

theorem bypassed_listDel (h : Links N) (x : N) :
    Links.Bypassed (h.prev x) (h.next x) h (listDel x h) where
  link := by simp [listDel, listDelBetween, Links.Linked]
  next n hn := by simp [listDel, listDelBetween, hn]
  prev n hn := by simp [listDel, listDelBetween, hn]

end ListHead

section families

variable {K α : Type*} [DecidableEq K] [DecidableEq α] {S : Set K} {h : Links (K ⊕ α)}
  {Q : K → List α} {loc : α → Option K} {x : α} {k : K} {l₁ l₂ : List α}

/-- `__list_add` between two neighbours of a queue. -/
theorem represents_listAddBetween (hrep : Represents S h Q) (hplaced : Placed Q loc)
    (hx : loc x = none) (hq : Q k = l₁ ++ l₂) :
    Represents S (listAddBetween (.inr x) (lastNode k l₁) (firstNode l₂ k) h)
      (Function.update Q k (l₁ ++ x :: l₂)) := by
  have hnot : x ∉ l₁ ∧ x ∉ l₂ := by
    have hmem : x ∉ Q k := hplaced.not_mem hx k
    rwa [hq, List.mem_append, not_or] at hmem
  have hlast : lastNode k l₁ ≠ .inr x := by
    intro hc
    rcases lastNode_mem k l₁ with h | ⟨y, hy, h⟩
    · rw [hc] at h
      cases h
    · rw [hc, Sum.inr.injEq] at h
      exact hnot.1 (h ▸ hy)
  have hfirst : firstNode l₂ k ≠ .inr x := by
    intro hc
    rcases firstNode_mem l₂ k with h | ⟨y, hy, h⟩
    · rw [hc] at h
      cases h
    · rw [hc, Sum.inr.injEq] at h
      exact hnot.2 (h ▸ hy)
  exact hrep.insert hplaced hx hq (inserted_listAddBetween hlast hfirst)

theorem represents_listAdd (hrep : Represents S h Q) (hplaced : Placed Q loc)
    (hx : loc x = none) (hk : k ∈ S) :
    Represents S (listAdd (.inr x) (.inl k) h) (enqueueFront x k Q) := by
  have hrep' := represents_listAddBetween hrep hplaced hx (List.nil_append (Q k)).symm
  rwa [← hrep.next_head hk] at hrep'

theorem represents_listAddTail (hrep : Represents S h Q) (hplaced : Placed Q loc)
    (hx : loc x = none) (hk : k ∈ S) :
    Represents S (listAddTail (.inr x) (.inl k) h) (enqueueBack x k Q) := by
  have hrep' := represents_listAddBetween hrep hplaced hx (List.append_nil (Q k)).symm
  rwa [← hrep.prev_head hk] at hrep'

/-- `list_add(x, queue->next)` -/
theorem represents_listAddNext (hrep : Represents S h Q) (hplaced : Placed Q loc)
    (hx : loc x = none) (hk : k ∈ S) :
    Represents S (listAdd (.inr x) (h.next (.inl k)) h)
      (Function.update Q k (pushSecond x (Q k))) := by
  cases hq : Q k with
  | nil =>
    rw [(hrep.next_eq_head_iff hk).mpr hq]
    have hrep' := represents_listAdd hrep hplaced hx hk
    rwa [enqueueFront, hq] at hrep'
  | cons y l =>
    have hnext : h.next (.inl k) = lastNode k [y] := by
      rw [hrep.next_head hk, hq]
      rfl
    have hq₀ : Q k = [] ++ y :: l := hq
    have hq₁ : Q k = [y] ++ l := hq
    have hsecond : h.next (.inr y) = firstNode l k := (hrep.neighbours hk hq₀).2
    have hrep' := represents_listAddBetween hrep hplaced hx hq₁
    rw [← hsecond] at hrep'
    rw [hnext]
    exact hrep'

theorem represents_listDel (hrep : Represents S h Q) (hplaced : Placed Q loc) (hk : k ∈ S)
    (hx : loc x = some k) : Represents S (listDel (.inr x) h) (remove x Q) :=
  hrep.bypass hplaced hk hx (bypassed_listDel h (.inr x))

end families

end ShortSched
