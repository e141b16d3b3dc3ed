import Mathlib.Algebra.BigOperators.Group.Finset.Basic

/-!
# Ledgers and totals

A ledger of gifts: who gave, who took, what the giver had before and was left with after. An
entry stays in the ledger until it is struck out, and `given` adds up what a party has out.

A total over a finite set of parties, of which a step changes one.
-/

namespace General

structure Gift (α : Type*) where
  giver : α
  taker : α
  had : ℕ
  left : ℕ
deriving DecidableEq

/-- By how much the gift lowered what the giver had. -/
def Gift.amount {α : Type*} (g : Gift α) : ℕ := g.had - g.left

variable {α : Type*} [DecidableEq α]

/-- What a party gave and has not got back. -/
def given : List (Gift α) → α → ℕ
  | [], _ => 0
  | g :: gs, a => (if g.giver = a then g.amount else 0) + given gs a

variable {gs : List (Gift α)} {a : α} {p : Gift α → Bool}

theorem given_eq_zero (h : ∀ g ∈ gs, g.giver ≠ a) : given gs a = 0 := by
  induction gs with
  | nil => rfl
  | cons g gs ih =>
    rw [given, if_neg (h g List.mem_cons_self), ih fun g hg => h g (List.mem_cons_of_mem _ hg)]

/-- To strike out entries is to have less out. -/
theorem given_filter_le (p : Gift α → Bool) (gs : List (Gift α)) (a : α) :
    given (gs.filter p) a ≤ given gs a := by
  induction gs with
  | nil => exact Nat.le_refl 0
  | cons g gs ih =>
    rw [List.filter_cons]
    split
    · rw [given, given]
      omega
    · rw [given]
      omega

/-- An entry that is struck out no longer counts. -/
theorem given_filter_add_le {g : Gift α} (hg : g ∈ gs) (hp : p g = false) (ha : g.giver = a) :
    given (gs.filter p) a + g.amount ≤ given gs a := by
  induction gs with
  | nil => cases hg
  | cons g' gs ih =>
    rcases List.mem_cons.mp hg with rfl | hmem
    · have hle := given_filter_le p gs a
      rw [List.filter_cons_of_neg (by rw [hp]; exact Bool.false_ne_true), given, if_pos ha]
      omega
    · have hle := ih hmem
      rw [List.filter_cons]
      split
      · rw [given, given]
        omega
      · rw [given]
        omega

/-! ## Totals -/

/-- A total changes by what the one party changes by. -/
theorem sum_change_one {M : Finset α} (f f' : α → ℕ) (ha : a ∈ M)
    (hsame : ∀ b ∈ M, b ≠ a → f' b = f b) : ∑ b ∈ M, f' b + f a = ∑ b ∈ M, f b + f' a := by
  have hrest : ∑ b ∈ M.erase a, f' b = ∑ b ∈ M.erase a, f b := by
    refine Finset.sum_congr rfl fun b hb => ?_
    obtain ⟨hne, hmem⟩ := Finset.mem_erase.mp hb
    exact hsame b hmem hne
  rw [← Finset.add_sum_erase M f' ha, ← Finset.add_sum_erase M f ha, hrest]
  omega

end General
