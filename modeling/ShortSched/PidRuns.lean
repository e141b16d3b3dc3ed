import Mathlib.Data.List.Pairwise
import ShortSched.PidTheorems

/-!
# Pids over runs

`last_pid` and `next_safe` are only right about the tasks that are on the list when `get_pid` scans
it. Three things break them: a call that finds no pid, a wrap while another fork is still copying,
and a parent that changes its group while it forks. In runs without these no pid is given out
twice, and `find_task_by_pid` finds the task that has it.
-/

namespace ShortSched

open General

/-! ## The hash table -/

namespace PidHash

variable {h : PidHash} {p : TaskId} {pid : ℤ}

/-- `hash_pid` puts a task at the head of its chain. -/
theorem pushed_hashPid (hp : h.next (.inl (pidHashfn pid)) ≠ some p) :
    HashLinks.Pushed p (pidHashfn pid) h (h.hashPid p pid) := by
  have hne : (Sum.inl (pidHashfn pid) : ℕ ⊕ TaskId) ≠ .inr p := Sum.inl_ne_inr
  unfold hashPid
  dsimp only [HashLinks.setNext]
  rw [Function.update_self]
  cases hhead : h.next (.inl (pidHashfn pid)) with
  | none =>
    refine ⟨Function.update_self .., ?_, Function.update_self .., ?_, fun a hb ha => ?_,
      fun y hy _ => Function.update_of_ne hy _ _⟩
    · dsimp only [HashLinks.setPprev]
      rw [Function.update_of_ne hne.symm, Function.update_self, hhead]
    · rw [hhead]
      exact nofun
    · dsimp only [HashLinks.setPprev]
      rw [Function.update_of_ne hb, Function.update_of_ne ha]
  | some q =>
    have hq : q ≠ p := by
      rintro rfl
      exact hp hhead
    refine ⟨Function.update_self .., ?_, Function.update_self .., ?_, fun a hb ha => ?_,
      fun y hy hyq => ?_⟩
    · dsimp only [HashLinks.setPprev]
      rw [Function.update_of_ne hne.symm, Function.update_self, hhead]
    · rw [hhead]
      rintro y ⟨⟩
      dsimp only [HashLinks.setPprev]
      rw [Function.update_of_ne hq, Function.update_self]
    · dsimp only [HashLinks.setPprev]
      rw [Function.update_of_ne hb, Function.update_of_ne ha]
    · have hyq' : y ≠ q := by
        rintro rfl
        exact hyq hhead
      dsimp only [HashLinks.setPprev]
      rw [Function.update_of_ne hy, Function.update_of_ne hyq']

/-- `unhash_pid` takes it out. -/
theorem unlinked_unhashPid : HashLinks.Unlinked p h (h.unhashPid p) := by
  unfold unhashPid
  cases hsucc : h.next (.inr p) with
  | none =>
    refine ⟨?_, fun y hy => ?_, fun a ha => Function.update_of_ne ha _ _, fun y _ => rfl⟩
    · exact Function.update_self ..
    · rw [hsucc] at hy
      cases hy
  | some q =>
    have hplace : (Function.update h.pprev q (h.pprev p)) p = h.pprev p := by
      by_cases hq : p = q
      · rw [hq, Function.update_self]
      · exact Function.update_of_ne hq _ _
    dsimp only [HashLinks.setPprev, HashLinks.setNext]
    rw [hplace]
    refine ⟨Function.update_self .., fun y hy => ?_, fun a ha => Function.update_of_ne ha _ _,
      fun y hy => ?_⟩
    · rw [hsucc] at hy
      cases hy
      exact Function.update_self ..
    · apply Function.update_of_ne
      rintro rfl
      exact hy hsucc

end PidHash

/-- Two lists that agree about the only element with a property find the same. -/
theorem find?_congr_of_unique {α : Type*} {p : α → Bool} {l l' : List α}
    (hmem : ∀ x, p x → (x ∈ l ↔ x ∈ l')) (hunique : ∀ x y, x ∈ l → y ∈ l → p x → p y → x = y) :
    l.find? p = l'.find? p := by
  cases hl : l.find? p with
  | none =>
    symm
    rw [List.find?_eq_none] at hl ⊢
    exact fun x hx hp => hl x ((hmem x hp).mpr hx) hp
  | some x =>
    have hx := List.mem_of_find?_eq_some hl
    have hpx : p x := List.find?_some hl
    cases hl' : l'.find? p with
    | none => exact absurd hpx (List.find?_eq_none.mp hl' x ((hmem x hpx).mp hx))
    | some y =>
      have hpy : p y := List.find?_some hl'
      have hy := (hmem y hpy).mpr (List.mem_of_find?_eq_some hl')
      rw [hunique x y hx hy hpx hpy]

/-- Two forks of different parents, with different children. -/
def PidFork.Apart (f g : PidFork) : Prop := f.parent ≠ g.parent ∧ f.child ≠ g.child

instance : Std.Symm PidFork.Apart where
  symm _ _ h := ⟨h.1.symm, h.2.symm⟩

namespace PidSys

open PidAlloc

variable {s s' : PidSys} {op : PidOp} {f : PidFork} {p : TaskId}

/-- The tasks that a bucket should hold: the youngest comes first. -/
def bucket (s : PidSys) (b : ℕ) : List TaskId :=
  (s.tasklist.filter fun t => pidHashfn (s.ids t).pid = b).reverse

/-- A task that has its pid: it is on the list or on its way. -/
def HasPid (s : PidSys) (t : TaskId) : Prop := t ∈ s.tasklist ∨ ∃ f ∈ s.forks, f.child = t

/-- All pids from 300 on but the last one are in use. -/
def Exhausted (s : PidSys) : Prop :=
  ∀ n, 300 ≤ n → n < pidMax → n ≠ s.alloc.lastPid → Taken s.listedIds n

/-- All pids behind the last one are in use, so that the search wraps. -/
def AtEnd (s : PidSys) : Prop := ∀ n, s.alloc.lastPid < n → n < pidMax → Taken s.listedIds n

/-- What keeps the numbers of a process and of its forks right. -/
structure PidInv (s : PidSys) : Prop where
  safe : s.alloc.Safe s.listedIds
  init : s.ids 0 = {}
  init_unlisted : 0 ∉ s.tasklist
  nodup : s.tasklist.Nodup
  parent : ∀ f ∈ s.forks, f.parent ∈ s.tasklist ∨ f.parent = 0
  child : ∀ f ∈ s.forks, f.child ≠ 0 ∧ f.child ∉ s.tasklist
  /-- a fork has handed out its pid, and shares the groups of its parent -/
  handed : ∀ f ∈ s.forks, (s.ids f.child).pid ≤ s.alloc.lastPid ∧
    (s.ids f.child).pgrp = (s.ids f.parent).pgrp ∧
    (s.ids f.child).session = (s.ids f.parent).session
  apart : s.forks.Pairwise PidFork.Apart
  unique : ∀ t u, s.HasPid t → s.HasPid u → (s.ids t).pid = (s.ids u).pid → (s.ids t).pid ≠ 0 →
    t = u
  hash : s.pidhash.Represents s.bucket

/-- The table is empty at boot. -/
theorem pidInv_boot : PidInv boot where
  safe := ⟨le_rfl, by decide, le_rfl, fun n _ _ hn => by simp [Taken, listedIds, boot] at hn⟩
  init := rfl
  init_unlisted := List.not_mem_nil
  nodup := List.nodup_nil
  parent := nofun
  child := nofun
  handed := nofun
  apart := List.Pairwise.nil
  unique t u ht := by
    obtain ht | ⟨f, hf, -⟩ := ht
    · cases ht
    · cases hf
  hash := ⟨fun b => HashLinks.chain_nil.mpr rfl, fun b => List.nodup_nil, nofun⟩

/-! ## The buckets -/

theorem mem_bucket {b : ℕ} {t : TaskId} :
    t ∈ s.bucket b ↔ t ∈ s.tasklist ∧ pidHashfn (s.ids t).pid = b := by
  rw [bucket, List.mem_reverse, List.mem_filter, decide_eq_true_eq]

/-- The buckets only depend on the task list and on the pids of its tasks. -/
theorem bucket_congr (hlist : s'.tasklist = s.tasklist)
    (hpid : ∀ t ∈ s.tasklist, (s'.ids t).pid = (s.ids t).pid) : s'.bucket = s.bucket := by
  funext b
  unfold bucket
  rw [hlist]
  congr 1
  apply List.filter_congr
  intro t ht
  rw [hpid t ht]

/-- The chains with one task more on the list. -/
theorem bucket_append (hlist : s'.tasklist = s.tasklist ++ [p])
    (hpid : ∀ t ∈ s.tasklist, (s'.ids t).pid = (s.ids t).pid) :
    s'.bucket = Function.update s.bucket (pidHashfn (s'.ids p).pid)
      (p :: s.bucket (pidHashfn (s'.ids p).pid)) := by
  have hrest : ∀ b, s.tasklist.filter (fun t => pidHashfn (s'.ids t).pid = b) =
      s.tasklist.filter fun t => pidHashfn (s.ids t).pid = b := by
    intro b
    apply List.filter_congr
    intro t ht
    rw [hpid t ht]
  funext b
  unfold bucket
  rw [hlist, List.filter_append, hrest, List.reverse_append]
  by_cases hb : b = pidHashfn (s'.ids p).pid
  · subst hb
    rw [Function.update_self]
    simp
  · rw [Function.update_of_ne hb]
    simp [Ne.symm hb]

/-- The chains with one task less. -/
theorem bucket_erase (hnodup : s.tasklist.Nodup) (hlist : s'.tasklist = s.tasklist.erase p)
    (hids : s'.ids = s.ids) :
    s'.bucket = Function.update s.bucket (pidHashfn (s.ids p).pid)
      ((s.bucket (pidHashfn (s.ids p).pid)).erase p) := by
  funext b
  by_cases hb : b = pidHashfn (s.ids p).pid
  · subst hb
    rw [Function.update_self]
    unfold bucket
    rw [hlist, hids, hnodup.erase_eq_filter, (List.nodup_reverse.mpr (hnodup.filter _)).erase_eq_filter,
      List.filter_reverse, List.filter_filter, List.filter_filter]
    simp only [Bool.and_comm]
  · rw [Function.update_of_ne hb]
    unfold bucket
    rw [hlist, hids, hnodup.erase_eq_filter, List.filter_filter]
    congr 1
    apply List.filter_congr
    intro t _
    by_cases ht : t = p
    · subst ht
      simp [Ne.symm hb]
    · simp [ht]

/-! ## What the invariant says of a lookup -/

/-- **`find_task_by_pid`** finds what a search of the whole task list finds. -/
theorem PidInv.findTaskByPid (h : PidInv s) {pid : ℤ} (hpid : pid ≠ 0) :
    s.findTaskByPid pid = some (s.tasklist.find? fun t => (s.ids t).pid = pid) := by
  have hlength : (s.bucket (pidHashfn pid)).length ≤ s.tasklist.length := by
    rw [bucket, List.length_reverse]
    exact List.length_filter_le _ _
  unfold PidSys.findTaskByPid PidHash.findTaskByPid
  rw [(h.hash.chain (pidHashfn pid)).walk_eq hlength]
  congr 1
  apply find?_congr_of_unique
  · intro t ht
    rw [decide_eq_true_eq] at ht
    rw [mem_bucket, ht]
    exact and_iff_left rfl
  · intro t u ht hu hpt hpu
    rw [decide_eq_true_eq] at hpt hpu
    apply h.unique t u (.inl (mem_bucket.mp ht).1) (.inl (mem_bucket.mp hu).1)
    · rw [hpt, hpu]
    · rwa [hpt]

/-! ## The steps -/

theorem Safe.mono {ps ps' : List TaskIds} {a : PidAlloc} (h : Safe ps a)
    (hsub : ∀ n, 0 < n → Taken ps' n → Taken ps n ∨ n ≤ a.lastPid) : Safe ps' a :=
  ⟨h.nonneg, h.lt, h.le, fun n hn hn' ht =>
    (hsub n (lt_of_le_of_lt h.nonneg hn) ht).elim (h.free n hn hn') (not_le.mpr hn)⟩

/-- The numbers that are taken are those that a listed task uses. -/
theorem taken_listedIds {n : ℤ} :
    Taken s.listedIds n ↔ ∃ t ∈ s.tasklist, (s.ids t).Uses n := by
  unfold Taken listedIds
  constructor
  · rintro ⟨q, hq, huses⟩
    obtain ⟨t, ht, rfl⟩ := List.mem_map.mp hq
    exact ⟨t, ht, huses⟩
  · rintro ⟨t, ht, huses⟩
    exact ⟨_, List.mem_map_of_mem ht, huses⟩

theorem ids_setIds_of_ne {ids : TaskIds} {t : TaskId} (ht : t ≠ p) :
    (s.setIds p ids).ids t = s.ids t := Function.update_of_ne ht _ _

theorem ids_setIds_self {ids : TaskIds} : (s.setIds p ids).ids p = ids := Function.update_self ..

/-- A fork that fails leaves its pid unused. -/
theorem PidInv.forkCleanup (h : PidInv s) (f : PidFork) : PidInv (s.forkCleanup f) where
  safe := h.safe
  init := h.init
  init_unlisted := h.init_unlisted
  nodup := h.nodup
  parent g hg := h.parent g (List.mem_of_mem_erase hg)
  child g hg := h.child g (List.mem_of_mem_erase hg)
  handed g hg := h.handed g (List.mem_of_mem_erase hg)
  apart := h.apart.sublist List.erase_sublist
  unique t u ht hu := by
    have hsub : ∀ t, (s.forkCleanup f).HasPid t → s.HasPid t := by
      rintro t (ht | ⟨g, hg, rfl⟩)
      · exact .inl ht
      · exact .inr ⟨g, List.mem_of_mem_erase hg, rfl⟩
    exact h.unique t u (hsub t ht) (hsub u hu)
  hash := h.hash

/-- A task that is reaped, and forks no more, leaves the list and its chain. -/
theorem PidInv.unhashProcess (h : PidInv s) (hp : p ∈ s.tasklist)
    (hidle : ∀ g ∈ s.forks, g.parent ≠ p) : PidInv (s.unhashProcess p) where
  safe := by
    apply Safe.mono h.safe
    intro n _ hn
    obtain ⟨t, ht, huses⟩ := taken_listedIds.mp hn
    exact .inl (taken_listedIds.mpr ⟨t, List.mem_of_mem_erase ht, huses⟩)
  init := h.init
  init_unlisted hmem := h.init_unlisted (List.mem_of_mem_erase hmem)
  nodup := h.nodup.erase p
  parent g hg := (h.parent g hg).imp_left fun hmem =>
    (List.mem_erase_of_ne (hidle g hg)).mpr hmem
  child g hg := ⟨(h.child g hg).1, fun hmem => (h.child g hg).2 (List.mem_of_mem_erase hmem)⟩
  handed := h.handed
  apart := h.apart
  unique t u ht hu :=
    h.unique t u (ht.imp_left List.mem_of_mem_erase) (hu.imp_left List.mem_of_mem_erase)
  hash := by
    have hmem : p ∈ s.bucket (pidHashfn (s.ids p).pid) := mem_bucket.mpr ⟨hp, rfl⟩
    have hbucket : (s.unhashProcess p).bucket = _ := bucket_erase h.nodup rfl rfl
    rw [hbucket]
    exact h.hash.unlink PidHash.unlinked_unhashPid hmem

/-- A task enters a group or session that is in use. -/
theorem PidInv.setGroup {ids : TaskIds} (h : PidInv s) (hp : p ∈ s.tasklist)
    (hsame : ids.pid = (s.ids p).pid ∧ ids.tgid = (s.ids p).tgid)
    (hpgrp : Taken s.listedIds ids.pgrp) (hsession : Taken s.listedIds ids.session)
    (hidle : ∀ g ∈ s.forks, g.parent ≠ p) : PidInv (s.setIds p ids) := by
  have hzero : 0 ≠ p := by
    rintro rfl
    exact h.init_unlisted hp
  have hpid : ∀ t, ((s.setIds p ids).ids t).pid = (s.ids t).pid := by
    intro t
    by_cases ht : t = p
    · rw [ht, ids_setIds_self, hsame.1]
    · rw [ids_setIds_of_ne ht]
  constructor
  case safe =>
    apply Safe.mono h.safe
    intro n _ hn
    obtain ⟨t, ht, huses⟩ := taken_listedIds.mp hn
    by_cases htp : t = p
    · subst htp
      rw [ids_setIds_self] at huses
      rcases huses with huses | huses | huses | huses
      · exact .inl (taken_listedIds.mpr ⟨t, hp, .inl (hsame.1.symm.trans huses)⟩)
      · exact .inl (huses ▸ hpgrp)
      · exact .inl (taken_listedIds.mpr ⟨t, hp, .inr (.inr (.inl (hsame.2.symm.trans huses)))⟩)
      · exact .inl (huses ▸ hsession)
    · rw [ids_setIds_of_ne htp] at huses
      exact .inl (taken_listedIds.mpr ⟨t, ht, huses⟩)
  case init => rw [ids_setIds_of_ne hzero, h.init]
  case init_unlisted => exact h.init_unlisted
  case nodup => exact h.nodup
  case parent => exact h.parent
  case child => exact h.child
  case handed =>
    intro g hg
    -- a child in flight is not listed, and its parent keeps its group
    have hchild : g.child ≠ p := by
      rintro rfl
      exact (h.child g hg).2 hp
    rw [ids_setIds_of_ne hchild, ids_setIds_of_ne (hidle g hg)]
    exact h.handed g hg
  case apart => exact h.apart
  case unique =>
    intro t u ht hu
    rw [hpid, hpid]
    exact h.unique t u ht hu
  case hash =>
    have hbucket : (s.setIds p ids).bucket = s.bucket := bucket_congr rfl fun t _ => hpid t
    rw [hbucket]
    exact h.hash

theorem mem_erase_forks (h : PidInv s) {g : PidFork} (hg : g ∈ s.forks.erase f)
    (hf : f ∈ s.forks) : g ∈ s.forks ∧ g.parent ≠ f.parent ∧ g.child ≠ f.child := by
  have hmem := List.mem_of_mem_erase hg
  have hnodup : s.forks.Nodup := h.apart.imp fun hne hc => hne.1 (congrArg PidFork.parent hc)
  have hne : g ≠ f := (hnodup.mem_erase_iff.mp hg).1
  exact ⟨hmem, h.apart.forall hmem hf hne⟩

/-! ### The end of a fork -/

theorem endFork_ids_of_ne {t : TaskId} (ht : t ≠ f.child) : (s.endFork f).ids t = s.ids t :=
  ids_setIds_of_ne ht

/-- The child keeps its pid and shares the rest with its parent, except a `tgid` of its own. -/
theorem PidInv.endFork_ids_child (h : PidInv s) (hf : f ∈ s.forks) :
    ((s.endFork f).ids f.child).pid = (s.ids f.child).pid ∧
      ((s.endFork f).ids f.child).pgrp = (s.ids f.parent).pgrp ∧
      ((s.endFork f).ids f.child).session = (s.ids f.parent).session ∧
      (((s.endFork f).ids f.child).tgid = (s.ids f.child).pid ∨
        ((s.endFork f).ids f.child).tgid = (s.ids f.parent).tgid) := by
  obtain ⟨-, hpgrp, hsession⟩ := h.handed f hf
  obtain ⟨child, hchild, hfields⟩ : ∃ child : TaskIds,
      (s.endFork f).ids f.child = child ∧ child.pid = (s.ids f.child).pid ∧
      child.pgrp = (s.ids f.parent).pgrp ∧ child.session = (s.ids f.parent).session ∧
      (child.tgid = (s.ids f.child).pid ∨ child.tgid = (s.ids f.parent).tgid) := by
    refine ⟨_, ids_setIds_self, ?_⟩
    split
    · exact ⟨rfl, hpgrp, hsession, .inr rfl⟩
    · exact ⟨rfl, hpgrp, hsession, .inl rfl⟩
  rwa [hchild]

theorem PidInv.endFork_pid (h : PidInv s) (hf : f ∈ s.forks) (t : TaskId) :
    ((s.endFork f).ids t).pid = (s.ids t).pid := by
  by_cases ht : t = f.child
  · rw [ht, (h.endFork_ids_child hf).1]
  · rw [endFork_ids_of_ne ht]

theorem PidInv.ne_child (h : PidInv s) (hf : f ∈ s.forks) {t : TaskId} (ht : t ∈ s.tasklist) :
    t ≠ f.child := by
  rintro rfl
  exact (h.child f hf).2 ht

/-- A child in flight makes no forks. -/
theorem PidInv.parent_ne_child (h : PidInv s) (hf : f ∈ s.forks) {g : PidFork}
    (hg : g ∈ s.forks) : g.parent ≠ f.child := by
  rcases h.parent g hg with hmem | hinit
  · exact h.ne_child hf hmem
  · rw [hinit]
    exact (h.child f hf).1.symm

/-- The numbers of a parent are in use, unless it is `init_task`. -/
theorem PidInv.parent_uses (h : PidInv s) (hf : f ∈ s.forks) {n : ℤ} (hn : 0 < n)
    (huses : (s.ids f.parent).Uses n) : Taken s.listedIds n := by
  rcases h.parent f hf with hmem | hinit
  · exact taken_listedIds.mpr ⟨_, hmem, huses⟩
  · rw [hinit, h.init] at huses
    dsimp only [TaskIds.Uses] at huses
    omega

/-- The numbers that a fork lists are its own pid and those of its parent. -/
theorem PidInv.endFork_safe (h : PidInv s) (hf : f ∈ s.forks) :
    (s.endFork f).alloc.Safe (s.endFork f).listedIds := by
  obtain ⟨hpid, hpgrp, hsession, htgid⟩ := h.endFork_ids_child hf
  have hle := (h.handed f hf).1
  apply Safe.mono h.safe
  intro n hn htaken
  obtain ⟨t, ht, huses⟩ := taken_listedIds.mp htaken
  rcases List.mem_append.mp ht with ht | ht
  · rw [endFork_ids_of_ne (h.ne_child hf ht)] at huses
    exact .inl (taken_listedIds.mpr ⟨t, ht, huses⟩)
  · rw [List.mem_singleton.mp ht] at huses
    rcases huses with huses | huses | huses | huses
    · exact .inr (by omega)
    · exact .inl (h.parent_uses hf hn (.inr (.inl (by omega))))
    · rcases htgid with htgid | htgid
      · exact .inr (by omega)
      · exact .inl (h.parent_uses hf hn (.inr (.inr (.inl (by omega)))))
    · exact .inl (h.parent_uses hf hn (.inr (.inr (.inr (by omega)))))

/-- `hash_pid` puts the child at the head of its chain. -/
theorem PidInv.endFork_hash (h : PidInv s) (hf : f ∈ s.forks) :
    (s.endFork f).pidhash.Represents (s.endFork f).bucket := by
  have hunlisted := (h.child f hf).2
  have hnot : ∀ b, f.child ∉ s.bucket b := fun b hmem => hunlisted (mem_bucket.mp hmem).1
  obtain ⟨pid, hhash, hpid⟩ : ∃ pid : ℤ, (s.endFork f).pidhash = s.pidhash.hashPid f.child pid ∧
      pid = ((s.endFork f).ids f.child).pid := by
    refine ⟨_, rfl, ?_⟩
    rw [(h.endFork_ids_child hf).1]
    split <;> rfl
  have hhead : s.pidhash.next (.inl (pidHashfn pid)) ≠ some f.child := by
    rw [(h.hash.chain _).next_eq]
    exact fun hc => hnot _ (List.mem_of_mem_head? hc)
  have hlist : (s.endFork f).tasklist = s.tasklist ++ [f.child] := rfl
  rw [bucket_append hlist fun t ht => by rw [endFork_ids_of_ne (h.ne_child hf ht)], ← hpid, hhash]
  exact h.hash.push (PidHash.pushed_hashPid hhead) hnot

/-- **The child** comes onto the list. -/
theorem PidInv.endFork (h : PidInv s) (hf : f ∈ s.forks) : PidInv (s.endFork f) := by
  obtain ⟨hzero, hunlisted⟩ := h.child f hf
  have hlist : (s.endFork f).tasklist = s.tasklist ++ [f.child] := rfl
  constructor
  case safe => exact h.endFork_safe hf
  case init => rw [endFork_ids_of_ne hzero.symm, h.init]
  case init_unlisted =>
    rw [hlist, List.mem_append, List.mem_singleton]
    rintro (hmem | hmem)
    · exact h.init_unlisted hmem
    · exact hzero hmem.symm
  case nodup =>
    rw [hlist]
    exact List.nodup_append.mpr ⟨h.nodup, List.nodup_singleton _, fun t ht u hu => by
      rw [List.mem_singleton.mp hu]
      exact h.ne_child hf ht⟩
  case parent =>
    intro g hg
    rw [hlist, List.mem_append]
    exact (h.parent g (List.mem_of_mem_erase hg)).imp_left .inl
  case child =>
    intro g hg
    obtain ⟨hmem, -, hne⟩ := mem_erase_forks h hg hf
    rw [hlist, List.mem_append, List.mem_singleton, not_or]
    exact ⟨(h.child g hmem).1, (h.child g hmem).2, hne⟩
  case handed =>
    intro g hg
    obtain ⟨hmem, -, hne⟩ := mem_erase_forks h hg hf
    rw [endFork_ids_of_ne hne, endFork_ids_of_ne (h.parent_ne_child hf hmem)]
    exact h.handed g hmem
  case apart =>
    have hforks : (s.endFork f).forks = s.forks.erase f := rfl
    rw [hforks]
    exact h.apart.sublist List.erase_sublist
  case unique =>
    have hsub : ∀ t, (s.endFork f).HasPid t → s.HasPid t := by
      rintro t (ht | ⟨g, hg, rfl⟩)
      · rw [hlist, List.mem_append, List.mem_singleton] at ht
        exact ht.imp_right fun ht => ⟨f, hf, ht.symm⟩
      · exact .inr ⟨g, List.mem_of_mem_erase hg, rfl⟩
    intro t u ht hu
    rw [h.endFork_pid hf, h.endFork_pid hf]
    exact h.unique t u (hsub t ht) (hsub u hu)
  case hash => exact h.endFork_hash hf

/-! ## `get_pid` in `do_fork` -/

/-- A pid that `get_pid` finds is nobody's, neither on the list nor on its way. -/
theorem PidInv.getPid {pid : ℤ} {alloc : PidAlloc} {fuel : ℕ} {cloneFlags : UInt32} {current : ℤ}
    (h : PidInv s) (hflags : cloneFlags &&& clonePid = 0) (hfuel : pidMax ≤ fuel)
    (hfree : ¬s.Exhausted) (hend : s.forks = [] ∨ ¬s.AtEnd)
    (hcall : s.alloc.getPid fuel s.listedIds cloneFlags current = some (pid, alloc)) :
    (0 < pid ∧ pid < pidMax ∧ ¬Taken s.listedIds pid ∧ ∀ g ∈ s.forks, (s.ids g.child).pid < pid) ∧
      alloc.lastPid = pid ∧ alloc.Safe s.listedIds ∧
        (s.forks = [] ∨ s.alloc.lastPid ≤ alloc.lastPid) := by
  obtain ⟨hfail, hfound⟩ := (getPid_spec h.safe hflags hfuel).2 pid alloc hcall
  have hne : pid ≠ 0 := fun h0 => hfree (hfail.mp h0).2
  obtain ⟨hpos, hlt, hnot, hlast, hsafe, hwrap⟩ := hfound hne
  have hup : s.forks = [] ∨ s.alloc.lastPid < pid := by
    refine hend.imp_right fun hnotEnd => ?_
    by_contra hle
    exact hnotEnd (hwrap (not_lt.mp hle))
  refine ⟨⟨hpos, hlt, hnot, fun g hg => ?_⟩, hlast, hsafe, hup.imp_right fun h => ?_⟩
  · rcases hup with hnone | hup
    · rw [hnone] at hg
      cases hg
    · exact lt_of_le_of_lt (h.handed g hg).1 hup
  · rw [hlast]
    exact h.le

/-- A child that has got its pid. -/
theorem PidInv.begun {pid : ℤ} {alloc : PidAlloc} (h : PidInv s)
    (hen : (PidOp.beginFork f).Enabled s) (hsafe : alloc.Safe s.listedIds)
    (hlast : pid ≤ alloc.lastPid) (hup : s.forks = [] ∨ s.alloc.lastPid ≤ alloc.lastPid)
    (hfresh : pid ≠ 0 → ∀ t, s.HasPid t → (s.ids t).pid ≠ pid) :
    PidInv { s.setIds f.child { s.ids f.parent with pid := pid } with
      alloc := alloc, forks := s.forks ++ [f] } := by
  obtain ⟨hparent, hzero, hunlisted, hapart⟩ := hen
  set s' : PidSys := { s.setIds f.child { s.ids f.parent with pid := pid } with
    alloc := alloc, forks := s.forks ++ [f] } with hs'
  have hother : ∀ t, t ≠ f.child → s'.ids t = s.ids t := fun t ht => ids_setIds_of_ne ht
  have hself : s'.ids f.child = { s.ids f.parent with pid := pid } := ids_setIds_self
  have hlisted : ∀ t ∈ s.tasklist, t ≠ f.child := by
    rintro t ht rfl
    exact hunlisted ht
  have hidsList : s'.listedIds = s.listedIds :=
    List.map_congr_left fun t ht => hother t (hlisted t ht)
  have hforks : ∀ g ∈ s'.forks, g ∈ s.forks ∨ g = f := by
    intro g hg
    rwa [hs', List.mem_append, List.mem_singleton] at hg
  have hparentNe : ∀ t, t ∈ s.tasklist ∨ t = 0 → t ≠ f.child := by
    rintro t (ht | rfl)
    · exact hlisted t ht
    · exact hzero.symm
  have hhas : ∀ t, s'.HasPid t → t = f.child ∨ t ≠ f.child ∧ s.HasPid t := by
    rintro t (ht | ⟨g, hg, rfl⟩)
    · exact .inr ⟨hlisted t ht, .inl ht⟩
    · rcases hforks g hg with hg | rfl
      · exact .inr ⟨(hapart g hg).2, .inr ⟨g, hg, rfl⟩⟩
      · exact .inl rfl
  constructor
  case safe =>
    rw [hidsList]
    exact hsafe
  case init => rw [hother 0 hzero.symm, h.init]
  case init_unlisted => exact h.init_unlisted
  case nodup => exact h.nodup
  case parent =>
    intro g hg
    rcases hforks g hg with hg | rfl
    · exact h.parent g hg
    · exact hparent
  case child =>
    intro g hg
    rcases hforks g hg with hg | rfl
    · exact h.child g hg
    · exact ⟨hzero, hunlisted⟩
  case handed =>
    intro g hg
    rcases hforks g hg with hg | rfl
    · obtain ⟨hle, hgroups⟩ := h.handed g hg
      rw [hother _ (hapart g hg).2, hother _ (hparentNe _ (h.parent g hg))]
      refine ⟨?_, hgroups⟩
      -- the child's pid is not above the last one that was given
      rcases hup with hnone | hup
      · rw [hnone] at hg
        cases hg
      · exact hle.trans hup
    · rw [hself, hother _ (hparentNe _ hparent)]
      exact ⟨hlast, rfl, rfl⟩
  case apart =>
    refine List.pairwise_append.mpr ⟨h.apart, List.pairwise_singleton _ _, fun g hg g' hg' => ?_⟩
    rw [List.mem_singleton.mp hg']
    exact hapart g hg
  case unique =>
    intro t u ht hu heq hne
    -- the new child against itself and against all others
    rcases hhas t ht with rfl | ⟨htc, ht⟩ <;> rcases hhas u hu with rfl | ⟨huc, hu⟩
    · rfl
    · rw [hself, hother u huc] at heq
      rw [hself] at hne
      exact absurd heq.symm (hfresh hne u hu)
    · rw [hself, hother t htc] at heq
      rw [hother t htc, heq] at hne
      exact absurd heq (hfresh hne t ht)
    · rw [hother t htc, hother u huc] at heq
      rw [hother t htc] at hne
      exact h.unique t u ht hu heq hne
  case hash =>
    have hbucket : s'.bucket = s.bucket :=
      bucket_congr rfl fun t ht => by rw [hother t (hlisted t ht)]
    rw [hbucket]
    exact h.hash

end PidSys

/-- What runs have to avoid: a fork that finds no pid, or that wraps while another one copies, and
a new group for a task that forks. -/
def PidOp.Undisturbed (s : PidSys) : PidOp → Prop
  | beginFork f => f.cloneFlags &&& clonePid ≠ 0 ∨ ¬s.Exhausted ∧ (s.forks = [] ∨ ¬s.AtEnd)
  | setGroup p _ _ => ∀ g ∈ s.forks, g.parent ≠ p
  | _ => True

namespace PidSys

open PidAlloc

variable {s s' : PidSys} {op : PidOp} {f : PidFork}

/-- The outcome of a fork up to `get_pid`. -/
theorem PidInv.beginFork (h : PidInv s) (hen : (PidOp.beginFork f).Enabled s)
    (hguard : (PidOp.beginFork f).Undisturbed s) (hcall : s.beginFork f = some s') :
    PidInv s' ∧ (f.cloneFlags &&& clonePid = 0 → 0 < (s'.ids f.child).pid ∧
      (s'.ids f.child).pid < pidMax ∧ ¬Taken s.listedIds (s'.ids f.child).pid ∧
      ∀ g ∈ s.forks, (s.ids g.child).pid ≠ (s'.ids f.child).pid) := by
  have hfuel : pidMax ≤ (pidMax.toNat : ℤ) := Int.self_le_toNat _
  unfold PidSys.beginFork at hcall
  dsimp only at hcall
  by_cases hflags : f.cloneFlags &&& clonePid = 0
  · rw [if_neg fun hc => hc.1 hflags] at hcall
    obtain ⟨⟨pid, alloc⟩, hpid, hcall⟩ := Option.bind_eq_some_iff.mp hcall
    obtain ⟨hfree, hend⟩ := hguard.resolve_left (not_not.mpr hflags)
    obtain ⟨⟨hpos, hlt, hnot, hflight⟩, hlast, hsafe, hup⟩ :=
      h.getPid hflags hfuel hfree hend hpid
    rw [if_neg fun hc => hpos.ne' hc.1] at hcall
    cases hcall
    refine ⟨h.begun hen hsafe hlast.ge hup fun _ t ht hc => ?_, fun _ => ?_⟩
    · rcases ht with ht | ⟨g, hg, rfl⟩
      · -- `get_pid` has seen the listed tasks, the order of pids keeps the others away
        exact hnot (taken_listedIds.mpr ⟨t, ht, .inl hc⟩)
      · exact (hflight g hg).ne hc
    · dsimp only [setIds]
      rw [Function.update_self]
      exact ⟨hpos, hlt, hnot, fun g hg => (hflight g hg).ne⟩
  · refine ⟨?_, fun hc => absurd hc hflags⟩
    by_cases hinit : (s.ids f.parent).pid = 0
    · -- `CLONE_PID` from the idle task: the child has pid 0 too
      rw [if_neg fun hc => hc.2 hinit, PidAlloc.getPid, if_pos hflags] at hcall
      dsimp only [Option.bind_eq_bind, Option.bind_some] at hcall
      rw [if_neg fun hc => hc.2 hinit] at hcall
      cases hcall
      refine h.begun hen h.safe ?_ (.inr le_rfl) fun hc => absurd hinit hc
      rw [hinit]
      exact h.safe.nonneg
    · rw [if_pos ⟨hflags, hinit⟩] at hcall
      cases hcall
      exact h

/-- **Every step** keeps the pids apart and the table in order. -/
theorem PidInv.step (h : PidInv s) (hstep : Guarded PidOp.Undisturbed PidStep s op s') :
    PidInv s' := by
  obtain ⟨hguard, hen, hexec⟩ := hstep
  cases op with
  | beginFork f => exact (h.beginFork hen hguard hexec).1
  | forkCleanup f =>
    cases hexec
    exact h.forkCleanup f
  | endFork f =>
    cases hexec
    exact h.endFork hen
  | unhashProcess p =>
    cases hexec
    exact h.unhashProcess hen.1 hen.2
  | setGroup p pgrp session =>
    cases hexec
    exact h.setGroup hen.1 ⟨rfl, rfl⟩ (taken_listedIds.mpr hen.2.1) (taken_listedIds.mpr hen.2.2)
      hguard

end PidSys

/-- No pid from 300 on has been given out yet. -/
def PidOp.Early (s : PidSys) : PidOp → Prop
  | beginFork _ => s.alloc.lastPid < 300 ∧ ¬PidAlloc.Taken s.listedIds 300
  | setGroup p _ _ => ∀ g ∈ s.forks, g.parent ≠ p
  | _ => True

instance (s : PidSys) : DecidablePred (PidOp.Early s)
  | .beginFork _ => inferInstanceAs (Decidable (_ ∧ _))
  | .setGroup p _ _ => List.decidableBAll (fun g : PidFork => g.parent ≠ p) s.forks
  | .forkCleanup _ | .endFork _ | .unhashProcess _ => instDecidableTrue

/-- Early steps disturb no fork. -/
theorem PidOp.Early.undisturbed {s : PidSys} {op : PidOp} (h : op.Early s) : op.Undisturbed s := by
  cases op with
  | beginFork f =>
    obtain ⟨hlt, hfree⟩ := h
    exact .inr ⟨fun hall => hfree (hall 300 le_rfl (by decide) hlt.ne'),
      .inr fun hall => hfree (hall 300 hlt (by decide))⟩
  | setGroup p pgrp session => exact h
  | forkCleanup f | endFork f | unhashProcess p => trivial

/-- An early step. -/
def earlyStep (s : PidSys) (op : PidOp) : Option PidSys :=
  if op.Early s ∧ op.Enabled s then op.exec s else none

theorem run_of_earlyStep {s s' : PidSys} {ops : List PidOp}
    (h : runWith earlyStep ops s = some s') :
    Run (Guarded PidOp.Undisturbed PidStep) s ops s' := by
  apply (run_iff_runWith (fun _ _ _ => Iff.rfl)).mpr h |>.mono
  intro s op s' hstep
  obtain ⟨⟨hearly, hen⟩, hexec⟩ := (Option.ite_none_right_eq_some ..).mp hstep
  exact ⟨hearly.undisturbed, hen, hexec⟩

end ShortSched
