import Mathlib.Algebra.BigOperators.Group.Finset.Piecewise
import Mathlib.Algebra.Order.BigOperators.Group.Finset
import Mathlib.Algebra.Order.Ring.Int
import Mathlib.Data.List.Nodup
import Mathlib.Data.List.Perm.Basic

/-!
# Families of queues with a location, a counter and a mark per level

`Q : K → List α` is a family of queues, one for each level. Three redundant views of it are
kept by hand in many schedulers and allocators:

* `Placed Q loc`: each element knows the one level it is queued on;
* `count S Q`: the number of elements on the levels `S`;
* `Marked S b Q`: one bit per level, set exactly on the non-empty levels.

An element enters a level by any insertion that is a permutation of consing it
(`InsertedAt`), and leaves by `remove`. Each view has one lemma for either.
-/

namespace General

variable {K α : Type*} [DecidableEq α]

/-! ## Insertion and removal -/

/-- `Q'` is `Q` with `x` put somewhere on level `k`. -/
structure InsertedAt (x : α) (k : K) (Q Q' : K → List α) : Prop where
  perm : (Q' k).Perm (x :: Q k)
  other : ∀ j, j ≠ k → Q' j = Q j

/-- Take `x` off whatever level it is on. -/
def remove (x : α) (Q : K → List α) : K → List α := fun k => (Q k).filter (· ≠ x)

@[simp] theorem mem_remove {x y : α} {Q : K → List α} {k : K} :
    y ∈ remove x Q k ↔ y ≠ x ∧ y ∈ Q k := by
  simp [remove, and_comm]

/-- Put `x` right behind the first element. -/
def pushSecond (x : α) : List α → List α
  | [] => [x]
  | y :: ys => y :: x :: ys

omit [DecidableEq α] in
theorem pushSecond_perm (x : α) (l : List α) : (pushSecond x l).Perm (x :: l) := by
  cases l with
  | nil => exact List.Perm.refl _
  | cons y ys => exact List.Perm.swap x y ys

section insertions
variable [DecidableEq K]

/-- Put `x` at the end of level `k`. -/
def enqueueBack (x : α) (k : K) (Q : K → List α) : K → List α := Function.update Q k (Q k ++ [x])

/-- Put `x` at the head of level `k`. -/
def enqueueFront (x : α) (k : K) (Q : K → List α) : K → List α := Function.update Q k (x :: Q k)

section
variable {x y : α} {k : K} {Q Q' : K → List α}

omit [DecidableEq α] in
theorem InsertedAt.of_update {l : List α} (h : l.Perm (x :: Q k)) :
    InsertedAt x k Q (Function.update Q k l) where
  perm := by rwa [Function.update_self]
  other j hj := Function.update_of_ne hj _ _

omit [DecidableEq α] [DecidableEq K] in
/-- An insertion adds no other element. -/
theorem InsertedAt.not_mem (h : InsertedAt x k Q Q') (hne : y ≠ x) (hy : ∀ j, y ∉ Q j) (j : K) :
    y ∉ Q' j := by
  by_cases hj : j = k
  · subst hj
    rw [h.perm.mem_iff, List.mem_cons, not_or]
    exact ⟨hne, hy j⟩
  · rw [h.other j hj]
    exact hy j

variable (x k Q)

omit [DecidableEq α] in
theorem insertedAt_enqueueBack : InsertedAt x k Q (enqueueBack x k Q) :=
  .of_update (List.perm_append_singleton x (Q k))

omit [DecidableEq α] in
theorem insertedAt_enqueueFront : InsertedAt x k Q (enqueueFront x k Q) :=
  .of_update (List.Perm.refl _)

omit [DecidableEq α] in
theorem getLast?_enqueueBack : (enqueueBack x k Q k).getLast? = some x := by
  rw [enqueueBack, Function.update_self, List.getLast?_concat]

omit [DecidableEq α] in
theorem head?_enqueueFront : (enqueueFront x k Q k).head? = some x := by
  rw [enqueueFront, Function.update_self, List.head?_cons]

variable {x k Q}

omit [DecidableEq α] in
/-- The last of a level stays the last. -/
theorem getLast?_enqueueFront {j : K} (h : (Q j).getLast? = some y) :
    (enqueueFront x k Q j).getLast? = some y := by
  by_cases hj : j = k
  · subst hj
    rw [enqueueFront, Function.update_self, List.getLast?_cons, h]
    rfl
  · rwa [enqueueFront, Function.update_of_ne hj]

omit [DecidableEq α] in
theorem enqueueBack_of_ne {j : K} (hj : j ≠ k) : enqueueBack x k Q j = Q j :=
  Function.update_of_ne hj _ _

omit [DecidableEq K] in
theorem remove_of_not_mem (h : ∀ j, x ∉ Q j) : remove x Q = Q := by
  ext1 j
  rw [remove, List.filter_eq_self]
  intro y hy
  have hne : y ≠ x := fun hc => h j (hc ▸ hy)
  simp [hne]

/-- What is put at the end of a level and taken off again leaves no trace. -/
theorem remove_enqueueBack (h : ∀ j, x ∉ Q j) : remove x (enqueueBack x k Q) = Q := by
  ext1 j
  by_cases hj : j = k
  · subst hj
    rw [remove, enqueueBack, Function.update_self, List.filter_append]
    have hrest : (Q j).filter (· ≠ x) = Q j := congrFun (remove_of_not_mem h) j
    rw [hrest]
    simp
  · show ((enqueueBack x k Q) j).filter _ = _
    rw [enqueueBack, Function.update_of_ne hj]
    exact congrFun (remove_of_not_mem h) j

/-- To remove an element that was put in front undoes it. -/
theorem remove_enqueueFront (h : ∀ j, x ∉ Q j) : remove x (enqueueFront x k Q) = Q := by
  ext1 j
  by_cases hj : j = k
  · subst hj
    rw [remove, enqueueFront, Function.update_self, List.filter_cons_of_neg (by simp)]
    exact congrFun (remove_of_not_mem h) j
  · show ((enqueueFront x k Q) j).filter _ = _
    rw [enqueueFront, Function.update_of_ne hj]
    exact congrFun (remove_of_not_mem h) j

end

end insertions

/-! ## Locations -/

/-- Each element is queued exactly where `loc` says, once. -/
structure Placed (Q : K → List α) (loc : α → Option K) : Prop where
  mem : ∀ x k, x ∈ Q k ↔ loc x = some k
  nodup : ∀ k, (Q k).Nodup

namespace Placed

variable {Q Q' : K → List α} {loc : α → Option K} {x y : α} {k : K}

omit [DecidableEq α] in
theorem not_mem (h : Placed Q loc) (hx : loc x = none) (k : K) : x ∉ Q k := by
  rw [h.mem, hx]
  exact nofun

/-- A removal changes only the queue of the element. -/
theorem remove_eq (h : Placed Q loc) (hx : loc x = some k) {j : K} (hj : j ≠ k) :
    remove x Q j = Q j := by
  rw [remove, List.filter_eq_self]
  intro y hy
  have hyx : y ≠ x := by
    rintro rfl
    rw [h.mem, hx] at hy
    exact hj (Option.some.inj hy).symm
  simp [hyx]

/-- The element inserted must not have been queued before. -/
theorem insert (h : Placed Q loc) (hx : loc x = none) (hQ : InsertedAt x k Q Q') :
    Placed Q' (Function.update loc x (some k)) where
  mem y j := by
    by_cases hj : j = k
    · subst hj
      rw [hQ.perm.mem_iff, List.mem_cons, h.mem]
      by_cases hy : y = x
      · subst hy
        simp
      · simp [hy]
    · rw [hQ.other j hj, h.mem]
      by_cases hy : y = x
      · subst hy
        rw [hx, Function.update_self]
        simp [Ne.symm hj]
      · rw [Function.update_of_ne hy]
  nodup j := by
    by_cases hj : j = k
    · subst hj
      rw [hQ.perm.nodup_iff, List.nodup_cons]
      exact ⟨h.not_mem hx j, h.nodup j⟩
    · rw [hQ.other j hj]
      exact h.nodup j

/-- An element that is removed is nowhere. -/
theorem remove (h : Placed Q loc) (x : α) :
    Placed (General.remove x Q) (Function.update loc x none) where
  mem y j := by
    rw [mem_remove, h.mem]
    by_cases hy : y = x
    · subst hy
      simp
    · simp [hy]
  nodup j := (h.nodup j).filter _

end Placed

/-! ## Counters -/

/-- How many elements are queued on the levels `S`. -/
def count (S : Finset K) (Q : K → List α) : ℤ := ∑ k ∈ S, ((Q k).length : ℤ)

section count
variable [DecidableEq K] {S : Finset K} {Q Q' : K → List α} {loc : α → Option K} {x : α} {k : K}

omit [DecidableEq α] [DecidableEq K] in
theorem count_nonneg (S : Finset K) (Q : K → List α) : 0 ≤ count S Q :=
  Finset.sum_nonneg fun _ _ => Int.natCast_nonneg _

omit [DecidableEq α] [DecidableEq K] in
/-- A family is empty on `S` exactly when it counts no element there. -/
theorem count_eq_zero_iff : count S Q = 0 ↔ ∀ k ∈ S, Q k = [] := by
  rw [count, Finset.sum_eq_zero_iff_of_nonneg fun _ _ => Int.natCast_nonneg _]
  simp

omit [DecidableEq α] in
/-- Families that differ on one level have counts that differ by that level's lengths. -/
theorem count_eq_add (h : ∀ j, j ≠ k → Q' j = Q j) :
    count S Q' = count S Q + if k ∈ S then ((Q' k).length : ℤ) - (Q k).length else 0 := by
  have hsum : ∀ j ∈ S, ((Q' j).length : ℤ)
      = (Q j).length + if j = k then ((Q' k).length : ℤ) - (Q k).length else 0 := by
    intro j _
    by_cases hj : j = k
    · subst hj
      simp
    · simp [hj, h j hj]
  rw [count, count, Finset.sum_congr rfl hsum, Finset.sum_add_distrib, Finset.sum_ite_eq']

omit [DecidableEq α] in
theorem count_insert (hQ : InsertedAt x k Q Q') :
    count S Q' = count S Q + if k ∈ S then 1 else 0 := by
  rw [count_eq_add hQ.other, hQ.perm.length_eq]
  simp

/-- A removal lowers the count of the queues that have the element. -/
theorem count_remove (h : Placed Q loc) (hx : loc x = some k) :
    count S (remove x Q) = count S Q - if k ∈ S then 1 else 0 := by
  have hmem : x ∈ Q k := (h.mem x k).mpr hx
  have hpos : 0 < (Q k).length := List.length_pos_of_mem hmem
  have hlen : ((remove x Q k).length : ℤ) - (Q k).length = -1 := by
    have herase : remove x Q k = (Q k).erase x := by
      rw [(h.nodup k).erase_eq_filter, remove]
      exact List.filter_congr fun y _ => by by_cases hy : y = x <;> simp [hy]
    rw [herase, List.length_erase_of_mem hmem]
    omega
  have hother : ∀ j, j ≠ k → remove x Q j = Q j := fun j hj => h.remove_eq hx hj
  rw [count_eq_add hother, hlen]
  split <;> omega

end count

/-! ## Marks -/

/-- On the levels `S` the bit is set exactly where something is queued. -/
def Marked (S : Finset K) (b : K → Bool) (Q : K → List α) : Prop :=
  ∀ k ∈ S, b k = true ↔ Q k ≠ []

namespace Marked

variable [DecidableEq K] {S : Finset K} {b b' : K → Bool} {Q Q' : K → List α}
  {loc : α → Option K} {x : α} {k : K}

omit [DecidableEq α] in
/-- Marks stay exact when the queue of an insertion is marked. -/
theorem insert (h : Marked S b Q) (hQ : InsertedAt x k Q Q') :
    Marked S (Function.update b k true) Q' := by
  intro j hj
  by_cases hjk : j = k
  · subst hjk
    have hne : Q' j ≠ [] := by
      intro hnil
      have := hQ.perm.length_eq
      simp [hnil] at this
    simp [hne]
  · rw [Function.update_of_ne hjk, hQ.other j hjk]
    exact h j hj

/-- Removal clears the mark of the level it emptied and no other. -/
theorem remove (h : Marked S b Q) (hp : Placed Q loc) (hx : loc x = some k)
    (hk : (b' k = true ↔ General.remove x Q k ≠ [])) (hne : ∀ j, j ≠ k → b' j = b j) :
    Marked S b' (General.remove x Q) := by
  intro j hj
  by_cases hjk : j = k
  · subst hjk
    exact hk
  · rw [hne j hjk, hp.remove_eq hx hjk]
    exact h j hj

end Marked

end General
