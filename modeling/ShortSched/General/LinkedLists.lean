import Mathlib.Data.List.Chain
import ShortSched.General.LevelQueues

/-!
# Families of circular doubly-linked lists

A heap of list nodes gives each node its `next` and its `prev`. A family of queues is kept as
circular lists: one head node for each level, one node for each element. `Represents` relates the
heap to the family. A heap operation is described by what it writes (`Inserted`, `Bypassed`), and
each of the two has one theorem that says what becomes of the family.
-/

namespace General

/-- The `next` and `prev` pointers of all nodes. -/
@[ext] structure Links (N : Type*) where
  next : N → N
  prev : N → N

namespace Links

variable {N : Type*}

section writes
variable [DecidableEq N]

def setNext (a b : N) (h : Links N) : Links N := { h with next := Function.update h.next a b }

def setPrev (a b : N) (h : Links N) : Links N := { h with prev := Function.update h.prev a b }

@[simp] theorem setNext_next (a b : N) (h : Links N) :
    (h.setNext a b).next = Function.update h.next a b := rfl
@[simp] theorem setNext_prev (a b : N) (h : Links N) : (h.setNext a b).prev = h.prev := rfl
@[simp] theorem setPrev_next (a b : N) (h : Links N) : (h.setPrev a b).next = h.next := rfl
@[simp] theorem setPrev_prev (a b : N) (h : Links N) :
    (h.setPrev a b).prev = Function.update h.prev a b := rfl

end writes

variable {h h' : Links N} {a b c x : N} {u v m : List N}

/-! ## Chains of nodes -/

/-- `b` follows `a`. -/
def Linked (h : Links N) (a b : N) : Prop := h.next a = b ∧ h.prev b = a

/-- A chain only depends on the `next` of all its nodes but the last and on the `prev` of all but
the first. -/
theorem chain_congr (hu : u.IsChain h.Linked) (hnext : ∀ n ∈ u.dropLast, h'.next n = h.next n)
    (hprev : ∀ n ∈ u.tail, h'.prev n = h.prev n) : u.IsChain h'.Linked := by
  induction u with
  | nil => exact List.isChain_nil
  | cons y u ih =>
    cases u with
    | nil => exact List.isChain_singleton y
    | cons z u =>
      rw [List.isChain_cons_cons] at hu ⊢
      refine ⟨⟨?_, ?_⟩, ih hu.2 (fun n hn => ?_) fun n hn => ?_⟩
      · rw [hnext y (by simp), hu.1.1]
      · rw [hprev z (by simp), hu.1.2]
      · exact hnext n (by simp [hn])
      · exact hprev n (by simpa using Or.inr hn)

/-- `h'` is `h` with `x` between `a` and `b`. -/
structure Inserted (x a b : N) (h h' : Links N) : Prop where
  before : h'.Linked a x
  after : h'.Linked x b
  next : ∀ n, n ≠ a → n ≠ x → h'.next n = h.next n
  prev : ∀ n, n ≠ b → n ≠ x → h'.prev n = h.prev n

/-- `h'` is `h` with `b` right behind `a`. -/
structure Bypassed (a b : N) (h h' : Links N) : Prop where
  link : h'.Linked a b
  next : ∀ n, n ≠ a → h'.next n = h.next n
  prev : ∀ n, n ≠ b → h'.prev n = h.prev n

/-- An insertion elsewhere keeps a chain. -/
theorem Inserted.chain_congr (hins : Inserted x a b h h') (hu : u.IsChain h.Linked)
    (hx : x ∉ u) (ha : a ∉ u.dropLast) (hb : b ∉ u.tail) : u.IsChain h'.Linked := by
  refine Links.chain_congr hu (fun n hn => ?_) fun n hn => ?_
  · apply hins.next
    · rintro rfl
      exact ha hn
    · rintro rfl
      exact hx (List.mem_of_mem_dropLast hn)
  · apply hins.prev
    · rintro rfl
      exact hb hn
    · rintro rfl
      exact hx (List.mem_of_mem_tail hn)

/-- So does a removal elsewhere. -/
theorem Bypassed.chain_congr (hby : Bypassed a b h h') (hu : u.IsChain h.Linked)
    (ha : a ∉ u.dropLast) (hb : b ∉ u.tail) : u.IsChain h'.Linked := by
  refine Links.chain_congr hu (fun n hn => ?_) fun n hn => ?_
  · apply hby.next
    rintro rfl
    exact ha hn
  · apply hby.prev
    rintro rfl
    exact hb hn

/-! ## Rings -/

/-- The circular list with the head `c` and the entries `m`. -/
def Ring (h : Links N) (c : N) (m : List N) : Prop := (c :: m ++ [c]).IsChain h.Linked

theorem Ring.next_head (hring : h.Ring c m) : h.next c = (m ++ [c]).head (by simp) := by
  cases m with
  | nil => exact (List.isChain_pair.mp hring).1
  | cons y m => exact (List.isChain_cons_cons.mp hring).1.1

theorem Ring.prev_head (hring : h.Ring c m) : h.prev c = (c :: m).getLast (by simp) := by
  have hlast := (List.isChain_append.mp hring).2.2 _ (List.getLast?_eq_some_getLast (by simp)) c rfl
  exact hlast.2

/-- A ring cut open between the entries `u` and `v`. -/
theorem ring_append : h.Ring c (u ++ v) ↔ (c :: u).IsChain h.Linked ∧
    (v ++ [c]).IsChain h.Linked ∧
      h.Linked ((c :: u).getLast (by simp)) ((v ++ [c]).head (by simp)) := by
  have hsplit : c :: (u ++ v) ++ [c] = (c :: u) ++ (v ++ [c]) := by simp
  rw [Ring, hsplit, List.isChain_append]
  refine and_congr_right fun _ => and_congr_right fun _ => ?_
  rw [List.getLast?_eq_some_getLast (by simp), List.head?_eq_some_head (by simp)]
  simp

/-- The two cut ends of a ring without repetitions: the left one is the last of `c :: u`, the right
one the first of `v ++ [c]`, and neither is used elsewhere on its side. -/
theorem cut_ends (hnodup : (c :: (u ++ v)).Nodup) :
    ((c :: u).getLast (by simp) ∉ (c :: u).dropLast ∧ (v ++ [c]).head (by simp) ∉ u) ∧
      (c :: u).getLast (by simp) ∉ v ∧ (v ++ [c]).head (by simp) ∉ (v ++ [c]).tail := by
  have hparts : (c :: u ++ v).Nodup := hnodup
  obtain ⟨hleft, hright, hdisjoint⟩ := List.nodup_append.mp hparts
  refine ⟨⟨?_, ?_⟩, ?_, ?_⟩
  · intro hmem
    have hends : ((c :: u).dropLast ++ [(c :: u).getLast (by simp)]).Nodup := by
      rwa [List.dropLast_append_getLast]
    exact (List.nodup_append.mp hends).2.2 _ hmem _ (by simp) rfl
  · cases v with
    | nil => exact (List.nodup_cons.mp hleft).1
    | cons y v => exact fun hy => hdisjoint y (List.mem_cons_of_mem c hy) y (by simp) rfl
  · exact fun hmem => hdisjoint _ (List.getLast_mem (by simp)) _ hmem rfl
  · cases v with
    | nil => simp
    | cons y v =>
      simp only [List.cons_append, List.head_cons, List.tail_cons, List.mem_append,
        List.mem_singleton, not_or]
      exact ⟨(List.nodup_cons.mp hright).1, fun hy => hdisjoint c (by simp) y (by simp) hy.symm⟩

/-- An entry goes into the ring. -/
theorem Ring.insert (hring : h.Ring c (u ++ v)) (hnodup : (c :: (u ++ v)).Nodup)
    (hx : x ∉ c :: (u ++ v))
    (hins : Inserted x ((c :: u).getLast (by simp)) ((v ++ [c]).head (by simp)) h h') :
    h'.Ring c (u ++ x :: v) := by
  obtain ⟨⟨ha, hb⟩, ha', hb'⟩ := cut_ends hnodup
  obtain ⟨hleft, hright, -⟩ := ring_append.mp hring
  simp only [List.mem_cons, List.mem_append, not_or] at hx
  refine ring_append.mpr ⟨?_, ?_, hins.before⟩
  · exact hins.chain_congr hleft (by simp [hx]) ha hb
  · rw [List.cons_append, List.isChain_cons]
    refine ⟨fun y hy => ?_, ?_⟩
    · rw [List.head?_eq_some_head (by simp), Option.mem_some_iff] at hy
      rw [← hy]
      exact hins.after
    · exact hins.chain_congr hright (by simp [hx]) (by simpa using ha') hb'

/-- An entry is taken out of the ring. -/
theorem Ring.bypass (hring : h.Ring c (u ++ x :: v)) (hnodup : (c :: (u ++ x :: v)).Nodup)
    (hby : Bypassed (h.prev x) (h.next x) h h') : h'.Ring c (u ++ v) := by
  obtain ⟨hleft, hright, hlast⟩ := ring_append.mp hring
  have hprev : h.prev x = (c :: u).getLast (by simp) := hlast.2
  have hnext : h.next x = (v ++ [c]).head (by simp) := by
    rw [List.cons_append, List.isChain_cons, List.head?_eq_some_head (by simp)] at hright
    exact (hright.1 _ rfl).1
  have hsub : (c :: (u ++ v)).Nodup := hnodup.sublist (by simp)
  obtain ⟨⟨ha, hb⟩, ha', hb'⟩ := cut_ends hsub
  rw [hprev, hnext] at hby
  refine ring_append.mpr ⟨?_, ?_, hby.link⟩
  · exact hby.chain_congr hleft ha hb
  · rw [List.cons_append, List.isChain_cons] at hright
    exact hby.chain_congr hright.2 (by simpa using ha') hb'

end Links

/-! ## Families of rings -/

open Links

variable {K α : Type*} {h h' : Links (K ⊕ α)} {Q : K → List α} {loc : α → Option K} {x : α}
  {j k : K} {l l₁ l₂ : List α} {S : Set K}

/-- The nodes of elements. -/
def nodes (l : List α) : List (K ⊕ α) := l.map Sum.inr

@[simp] theorem mem_nodes {n : K ⊕ α} : n ∈ nodes l ↔ ∃ y ∈ l, .inr y = n := List.mem_map

@[simp] theorem nodes_append : (nodes (l₁ ++ l₂) : List (K ⊕ α)) = nodes l₁ ++ nodes l₂ :=
  List.map_append

@[simp] theorem nodes_cons : (nodes (x :: l) : List (K ⊕ α)) = .inr x :: nodes l := rfl

/-- The nodes of a level without repetitions. -/
theorem nodup_ring (k : K) (hl : l.Nodup) : (Sum.inl k :: nodes l).Nodup := by
  rw [List.nodup_cons]
  exact ⟨by simp, hl.map Sum.inr_injective⟩

/-- The node behind which the element after `l` is linked on the level `k`. -/
def lastNode (k : K) (l : List α) : K ⊕ α := (.inl k :: nodes l).getLast (by simp)

/-- The node in front of which the element before `l` is linked on the level `k`. -/
def firstNode (l : List α) (k : K) : K ⊕ α := (nodes l ++ [Sum.inl k]).head (by simp)

theorem lastNode_mem (k : K) (l : List α) :
    lastNode k l = .inl k ∨ ∃ y ∈ l, .inr y = lastNode k l := by
  have hmem : lastNode k l ∈ Sum.inl k :: nodes l := List.getLast_mem _
  rwa [List.mem_cons, mem_nodes] at hmem

theorem firstNode_mem (l : List α) (k : K) :
    firstNode l k = .inl k ∨ ∃ y ∈ l, .inr y = firstNode l k := by
  have hmem : firstNode l k ∈ nodes l ++ [Sum.inl k] := List.head_mem _
  rw [List.mem_append, mem_nodes, List.mem_singleton] at hmem
  exact hmem.symm

/-- The heap holds the levels `S` of the family: the level `k` is the ring with the head
`.inl k`. -/
def Represents (S : Set K) (h : Links (K ⊕ α)) (Q : K → List α) : Prop :=
  ∀ k ∈ S, h.Ring (.inl k) (nodes (Q k))

namespace Represents

theorem next_head (hrep : Represents S h Q) (hk : k ∈ S) :
    h.next (.inl k) = firstNode (Q k) k :=
  (hrep k hk).next_head

theorem prev_head (hrep : Represents S h Q) (hk : k ∈ S) : h.prev (.inl k) = lastNode k (Q k) :=
  (hrep k hk).prev_head

/-- The neighbours of an element. -/
theorem neighbours (hrep : Represents S h Q) (hk : k ∈ S) (hq : Q k = l₁ ++ x :: l₂) :
    h.prev (.inr x) = lastNode k l₁ ∧ h.next (.inr x) = firstNode l₂ k := by
  have hring := hrep k hk
  rw [hq, nodes_append, nodes_cons] at hring
  obtain ⟨-, hright, hlast⟩ := ring_append.mp hring
  rw [List.cons_append, List.isChain_cons, List.head?_eq_some_head (by simp)] at hright
  exact ⟨hlast.2, (hright.1 _ rfl).1⟩

theorem next_eq_head_iff (hrep : Represents S h Q) (hk : k ∈ S) :
    h.next (.inl k) = .inl k ↔ Q k = [] := by
  rw [hrep.next_head hk, firstNode]
  cases Q k with
  | nil => simp [nodes]
  | cons y l => simp

/-- The nodes of another level. -/
theorem not_mem_ring (hplaced : Placed Q loc) (hj : j ≠ k) {n : K ⊕ α}
    (hn : n = .inl k ∨ ∃ y, loc y ≠ some j ∧ .inr y = n) :
    n ∉ Sum.inl j :: nodes (Q j) ++ [Sum.inl j] := by
  rcases hn with rfl | ⟨y, hy, rfl⟩
  · simp [hj.symm]
  · simpa [hplaced.mem] using hy

/-- What is linked on the level `k` is linked on no other. -/
theorem not_mem_other (hplaced : Placed Q loc) (hj : j ≠ k) (hsub : ∀ y ∈ l, y ∈ Q k) {n : K ⊕ α}
    (hn : n = .inl k ∨ ∃ y ∈ l, .inr y = n) :
    n ∉ Sum.inl j :: nodes (Q j) ++ [Sum.inl j] := by
  refine not_mem_ring hplaced hj (hn.imp_right ?_)
  rintro ⟨y, hy, hyn⟩
  have hlevel : loc y = some k := (hplaced.mem y k).mp (hsub y hy)
  refine ⟨y, fun hc => hj ?_, hyn⟩
  rw [hlevel, Option.some_inj] at hc
  exact hc.symm

/-- **Insertion**: an element that is on no level is put between two neighbours. -/
theorem insert [DecidableEq K] (hrep : Represents S h Q) (hplaced : Placed Q loc)
    (hx : loc x = none) (hq : Q k = l₁ ++ l₂)
    (hins : Inserted (.inr x) (lastNode k l₁) (firstNode l₂ k) h h') :
    Represents S h' (Function.update Q k (l₁ ++ x :: l₂)) := by
  intro j hjS
  by_cases hj : j = k
  · subst hj
    have hring := hrep j hjS
    have hnodup : (Sum.inl j :: nodes (Q j)).Nodup := nodup_ring j (hplaced.nodup j)
    have hmem : x ∉ l₁ ++ l₂ := by
      rw [← hq, hplaced.mem, hx]
      exact nofun
    rw [hq, nodes_append] at hring hnodup
    rw [Function.update_self, nodes_append, nodes_cons]
    refine hring.insert hnodup ?_ hins
    simpa using hmem
  · rw [Function.update_of_ne hj]
    refine hins.chain_congr (hrep j hjS) ?_ (fun hmem => ?_) fun hmem => ?_
    · refine not_mem_ring hplaced hj (.inr ⟨x, ?_, rfl⟩)
      rw [hx]
      exact nofun
    · refine not_mem_other hplaced hj ?_ (lastNode_mem k l₁) (List.mem_of_mem_dropLast hmem)
      exact fun y hy => hq ▸ List.mem_append_left _ hy
    · refine not_mem_other hplaced hj ?_ (firstNode_mem l₂ k) (List.mem_of_mem_tail hmem)
      exact fun y hy => hq ▸ List.mem_append_right _ hy

/-- **Removal** of an element from the level it is on. -/
theorem bypass [DecidableEq α] (hrep : Represents S h Q) (hplaced : Placed Q loc) (hk : k ∈ S)
    (hx : loc x = some k) (hby : Bypassed (h.prev (.inr x)) (h.next (.inr x)) h h') :
    Represents S h' (remove x Q) := by
  obtain ⟨l₁, l₂, hq⟩ := List.append_of_mem ((hplaced.mem x k).mpr hx)
  have hnodup := hplaced.nodup k
  intro j hjS
  by_cases hj : j = k
  · subst hj
    have hring := hrep j hjS
    have hnodes : (Sum.inl j :: nodes (Q j)).Nodup := nodup_ring j hnodup
    rw [hq] at hnodup
    have hrest : remove x Q j = l₁ ++ l₂ := by
      have hnot : ∀ y ∈ l₁ ++ l₂, y ≠ x := by
        rintro y hy rfl
        exact (List.nodup_middle.mp hnodup).notMem hy
      rw [remove, hq, List.filter_append, List.filter_cons_of_neg (by simp), ← List.filter_append,
        List.filter_eq_self]
      exact fun y hy => decide_eq_true (hnot y hy)
    rw [hq, nodes_append, nodes_cons] at hring hnodes
    rw [hrest, nodes_append]
    exact hring.bypass hnodes hby
  · obtain ⟨hprev, hnext⟩ := hrep.neighbours hk hq
    rw [hprev, hnext] at hby
    rw [hplaced.remove_eq hx hj]
    refine hby.chain_congr (hrep j hjS) (fun hmem => ?_) fun hmem => ?_
    · refine not_mem_other hplaced hj ?_ (lastNode_mem k l₁) (List.mem_of_mem_dropLast hmem)
      exact fun y hy => hq ▸ List.mem_append_left _ hy
    · refine not_mem_other hplaced hj ?_ (firstNode_mem l₂ k) (List.mem_of_mem_tail hmem)
      exact fun y hy => hq ▸ List.mem_append_right _ (List.mem_cons_of_mem _ hy)

end Represents

end General
