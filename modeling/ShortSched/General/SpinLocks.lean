import Mathlib.Data.Set.Finite.Basic
import Mathlib.Order.Preorder.Finite

/-!
# Locks that are taken in order

Parties hold locks and wait for locks. A party that waits only for locks above all those that it holds
cannot be part of a deadlock: the holder of the greatest lock that is held does not wait for a lock
that is held. Nothing is said about fairness.
-/

namespace General

variable {ι κ : Type*}

/-- The party waits for a lock that is held. -/
def Blocked (owner : κ → Option ι) (wants : ι → Option κ) (i : ι) : Prop :=
  ∃ l, wants i = some l ∧ owner l ≠ none

/-- A party waits for locks above its own only. -/
def TakenInOrder [LT κ] (owner : κ → Option ι) (wants : ι → Option κ) : Prop :=
  ∀ i l l', wants i = some l → owner l' = some i → l' < l

/-- **No deadlock.** A party that holds a lock is not blocked. -/
theorem exists_holder_not_blocked [LinearOrder κ] {owner : κ → Option ι} {wants : ι → Option κ}
    (horder : TakenInOrder owner wants) (hfinite : {l | owner l ≠ none}.Finite)
    (hheld : ∃ l, owner l ≠ none) :
    ∃ i, (∃ l, owner l = some i) ∧ ¬Blocked owner wants i := by
  obtain ⟨top, htop⟩ := hfinite.exists_maximal hheld
  obtain ⟨i, hi⟩ := Option.ne_none_iff_exists'.mp htop.prop
  refine ⟨i, ⟨top, hi⟩, ?_⟩
  rintro ⟨l, hwants, howned⟩
  exact (horder i l top hwants hi).not_ge (htop.le_of_ge howned (horder i l top hwants hi).le)

/-- Among the parties that are at work, one is not blocked. -/
theorem exists_not_blocked [LinearOrder κ] {owner : κ → Option ι} {wants : ι → Option κ}
    (horder : TakenInOrder owner wants) (hfinite : {l | owner l ≠ none}.Finite)
    {Works : ι → Prop} (howner : ∀ l i, owner l = some i → Works i) (hworks : ∃ i, Works i) :
    ∃ i, Works i ∧ ¬Blocked owner wants i := by
  by_cases hheld : ∃ l, owner l ≠ none
  · obtain ⟨i, ⟨l, hl⟩, hfree⟩ := exists_holder_not_blocked horder hfinite hheld
    exact ⟨i, howner l i hl, hfree⟩
  · obtain ⟨i, hi⟩ := hworks
    exact ⟨i, hi, fun ⟨l, _, howned⟩ => hheld ⟨l, howned⟩⟩

end General
