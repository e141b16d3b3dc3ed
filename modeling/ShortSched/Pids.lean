import ShortSched.General.HashChains
import ShortSched.General.Runs
import ShortSched.Task

/-!
# Process numbers

`get_pid` of `do_fork`, and the table in which `find_task_by_pid` looks tasks up. The pid of a
child is chosen before `do_fork` copies files and memory, and the child enters the task list and
the table when that is done. In between the parent may sleep, and other processes fork, exit and
change their groups and sessions: `PidSys` takes these steps in any order.
-/

namespace ShortSched

open General

def cloneThread : UInt32 := 0x00010000

/-- `PID_MAX` -/
def pidMax : ℤ := 0x8000

/-- The numbers of a task that `get_pid` avoids. -/
structure TaskIds where
  pid : ℤ := 0
  pgrp : ℤ := 0
  tgid : ℤ := 0
  session : ℤ := 0
deriving DecidableEq

namespace TaskIds

/-- One of the numbers is `n`. -/
abbrev Uses (p : TaskIds) (n : ℤ) : Prop :=
  p.pid = n ∨ p.pgrp = n ∨ p.tgid = n ∨ p.session = n

/-- How a task bounds `next_safe`. -/
def bound (lastPid : ℤ) (p : TaskIds) (nextSafe : ℤ) : ℤ :=
  let nextSafe := if p.pid > lastPid ∧ nextSafe > p.pid then p.pid else nextSafe
  let nextSafe := if p.pgrp > lastPid ∧ nextSafe > p.pgrp then p.pgrp else nextSafe
  let nextSafe := if p.tgid > lastPid ∧ nextSafe > p.tgid then p.tgid else nextSafe
  if p.session > lastPid ∧ nextSafe > p.session then p.session else nextSafe

end TaskIds

/-! ## `get_pid` -/

/-- `last_pid` and `next_safe`: no number in between is in use. -/
structure PidAlloc where
  lastPid : ℤ
  nextSafe : ℤ
deriving DecidableEq

namespace PidAlloc

/-- `last_pid & 0xffff8000` -/
abbrev Overflows (lastPid : ℤ) : Prop := UInt32.ofInt lastPid &&& 0xffff8000 ≠ 0

/-- `for_each_task`: whether a task uses `lastPid`, and `next_safe` when the loop is left. -/
def scan (lastPid : ℤ) : List TaskIds → ℤ → Bool × ℤ
  | [], nextSafe => (false, nextSafe)
  | p :: ps, nextSafe =>
    if p.Uses lastPid then (true, nextSafe) else scan lastPid ps (p.bound lastPid nextSafe)

/-- The step to the next number, when `lastPid` is in use. -/
def advance (a : PidAlloc) : PidAlloc :=
  let lastPid := a.lastPid + 1
  if lastPid ≥ a.nextSafe then
    { lastPid := if Overflows lastPid then 300 else lastPid, nextSafe := pidMax }
  else { a with lastPid := lastPid }

/-- The code from `repeat` on, with the number that it returns; `none` when the fuel runs out. -/
def repeatScan (ps : List TaskIds) (beginpid : ℤ) : ℕ → PidAlloc → Option (ℤ × PidAlloc)
  | 0, _ => none
  | n + 1, a =>
    let (taken, nextSafe) := scan a.lastPid ps a.nextSafe
    let a := { a with nextSafe := nextSafe }
    if taken then
      let a := a.advance
      -- `nomorepids`
      if a.lastPid = beginpid then some (0, a) else repeatScan ps beginpid n a
    else some (a.lastPid, a)

/-- `get_pid` for a `current` with the number `pid` -/
def getPid (fuel : ℕ) (ps : List TaskIds) (cloneFlags : UInt32) (pid : ℤ) (a : PidAlloc) :
    Option (ℤ × PidAlloc) :=
  if cloneFlags &&& clonePid ≠ 0 then some (pid, a)
  else
    let beginpid := a.lastPid
    let lastPid := a.lastPid + 1
    -- Skip daemons etc.
    if Overflows lastPid then
      repeatScan ps beginpid fuel { lastPid := 300, nextSafe := pidMax }
    else if lastPid ≥ a.nextSafe then
      repeatScan ps beginpid fuel { lastPid := lastPid, nextSafe := pidMax }
    else some (lastPid, { a with lastPid := lastPid })

end PidAlloc

/-! ## `pidhash` -/

/-- The buckets of `pidhash`, and `pidhash_next` and `pidhash_pprev` of the tasks. -/
abbrev PidHash := HashLinks ℕ TaskId

/-- `pid_hashfn`: an index below `PIDHASH_SZ` -/
def pidHashfn (pid : ℤ) : ℕ :=
  let x := Int32.ofInt pid
  ((x >>> 8 ^^^ x) &&& 1023).toInt.toNat

namespace PidHash

/-- `hash_pid` of a task with the number `pid` -/
def hashPid (p : TaskId) (pid : ℤ) (h : PidHash) : PidHash :=
  let htable : ℕ ⊕ TaskId := .inl (pidHashfn pid)
  let h := h.setNext (.inr p) (h.next htable)
  let h := match h.next (.inr p) with
    | some q => h.setPprev q (.inr p)
    | none => h
  (h.setNext htable (some p)).setPprev p htable

/-- `unhash_pid` -/
def unhashPid (p : TaskId) (h : PidHash) : PidHash :=
  let h := match h.next (.inr p) with
    | some q => h.setPprev q (h.pprev p)
    | none => h
  h.setNext (h.pprev p) (h.next (.inr p))

/-- `find_task_by_pid`; `none` when the fuel runs out. -/
def findTaskByPid (fuel : ℕ) (ids : TaskId → TaskIds) (pid : ℤ) (h : PidHash) :
    Option (Option TaskId) :=
  HashLinks.walk (fun p => (ids p).pid = pid) h fuel (h.next (.inl (pidHashfn pid)))

end PidHash

/-! ## The processes -/

/-- A fork between `get_pid` and `SET_LINKS`. -/
structure PidFork where
  parent : TaskId
  child : TaskId
  cloneFlags : UInt32
deriving DecidableEq

structure PidSys where
  alloc : PidAlloc
  ids : TaskId → TaskIds
  /-- the tasks that `for_each_task` visits; `init_task`, which is 0, is not one of them -/
  tasklist : List TaskId
  pidhash : PidHash
  forks : List PidFork

namespace PidSys

/-- No task but `init_task`. -/
def boot : PidSys where
  alloc := { lastPid := 0, nextSafe := pidMax }
  ids := fun _ => {}
  tasklist := []
  pidhash := { next := fun _ => none, pprev := fun _ => .inl 0 }
  forks := []

def setIds (p : TaskId) (ids : TaskIds) (s : PidSys) : PidSys :=
  { s with ids := Function.update s.ids p ids }

/-- The numbers that `get_pid` looks at. -/
def listedIds (s : PidSys) : List TaskIds := s.tasklist.map s.ids

/-- `do_fork` up to `get_pid` and the test of its result; it has not failed before. `none` when
`get_pid` does not return. -/
def beginFork (f : PidFork) (s : PidSys) : Option PidSys := do
  let current := s.ids f.parent
  if f.cloneFlags &&& clonePid ≠ 0 ∧ current.pid ≠ 0 then return s
  let (pid, alloc) ← s.alloc.getPid pidMax.toNat s.listedIds f.cloneFlags current.pid
  let s := { s with alloc := alloc }
  if pid = 0 ∧ current.pid ≠ 0 then return s
  return { s.setIds f.child { current with pid := pid } with forks := s.forks ++ [f] }

/-- A copy has failed: `bad_fork_cleanup`. -/
def forkCleanup (f : PidFork) (s : PidSys) : PidSys := { s with forks := s.forks.erase f }

/-- The rest of `do_fork`: `tgid`, `SET_LINKS` and `hash_pid`. -/
def endFork (f : PidFork) (s : PidSys) : PidSys :=
  let child := s.ids f.child
  let child := { child with tgid := child.pid }
  let child := if f.cloneFlags &&& cloneThread ≠ 0 then
      { child with tgid := (s.ids f.parent).tgid }
    else child
  { s.setIds f.child child with
    tasklist := s.tasklist ++ [f.child]
    pidhash := s.pidhash.hashPid f.child child.pid
    forks := s.forks.erase f }

/-- `unhash_process` -/
def unhashProcess (p : TaskId) (s : PidSys) : PidSys :=
  { s with pidhash := s.pidhash.unhashPid p, tasklist := s.tasklist.erase p }

/-- `find_task_by_pid`, which returns within as many steps as there are tasks. -/
def findTaskByPid (pid : ℤ) (s : PidSys) : Option (Option TaskId) :=
  s.pidhash.findTaskByPid s.tasklist.length s.ids pid

end PidSys

inductive PidOp
  | beginFork (f : PidFork)
  | forkCleanup (f : PidFork)
  | endFork (f : PidFork)
  | unhashProcess (p : TaskId)
  /-- `setpgid` or `setsid`: a task joins or leads a group or a session -/
  | setGroup (p : TaskId) (pgrp session : ℤ)
deriving DecidableEq

namespace PidOp

/-- When a step can be taken. A task forks once at a time and does not exit meanwhile. A group or
session that a task enters is in use: it is that of a task, or the pid of one. -/
def Enabled (s : PidSys) : PidOp → Prop
  | beginFork f => (f.parent ∈ s.tasklist ∨ f.parent = 0) ∧ f.child ≠ 0 ∧ f.child ∉ s.tasklist ∧
      ∀ g ∈ s.forks, g.parent ≠ f.parent ∧ g.child ≠ f.child
  | forkCleanup f => f ∈ s.forks
  | endFork f => f ∈ s.forks
  | unhashProcess p => p ∈ s.tasklist ∧ ∀ g ∈ s.forks, g.parent ≠ p
  | setGroup p pgrp session => p ∈ s.tasklist ∧ (∃ t ∈ s.tasklist, (s.ids t).Uses pgrp) ∧
      ∃ t ∈ s.tasklist, (s.ids t).Uses session

instance (s : PidSys) (op : PidOp) : Decidable (op.Enabled s) := by
  cases op <;> unfold Enabled <;> infer_instance

def exec : PidOp → PidSys → Option PidSys
  | beginFork f, s => s.beginFork f
  | forkCleanup f, s => some (s.forkCleanup f)
  | endFork f, s => some (s.endFork f)
  | unhashProcess p, s => some (s.unhashProcess p)
  | setGroup p pgrp session, s =>
    some (s.setIds p { s.ids p with pgrp := pgrp, session := session })

end PidOp

def PidStep (s : PidSys) (op : PidOp) (s' : PidSys) : Prop := op.Enabled s ∧ op.exec s = some s'

end ShortSched
