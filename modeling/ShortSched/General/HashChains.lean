import Mathlib.Data.List.Nodup
import Mathlib.Logic.Function.Basic
import Mathlib.Data.Sum.Basic

/-!
# Hash chains

A hash table whose buckets are singly linked chains, in which every element also knows the place
that points at it: the bucket or the element before it. An element is put in front of a chain and
taken out of the middle of one without a search. `Represents` relates the pointers to the lists
that the buckets hold.
-/

namespace General

/-- A place that holds a pointer to an element is a bucket or the `next` of an element. -/
structure HashLinks (β τ : Type*) where
  next : β ⊕ τ → Option τ
  pprev : τ → β ⊕ τ

namespace HashLinks

variable {β τ : Type*}

section writes

def setNext [DecidableEq β] [DecidableEq τ] (l : β ⊕ τ) (o : Option τ) (h : HashLinks β τ) :
    HashLinks β τ :=
  { h with next := Function.update h.next l o }

variable [DecidableEq τ]

def setPprev (x : τ) (l : β ⊕ τ) (h : HashLinks β τ) : HashLinks β τ :=
  { h with pprev := Function.update h.pprev x l }

end writes

/-! ## Chains -/

variable {h h' : HashLinks β τ} {l : β ⊕ τ} {x y : τ} {xs ys : List τ} {b : β}

/-- The pointers lead from `l` through `xs`. -/
def Path (h : HashLinks β τ) : β ⊕ τ → List τ → Prop
  | _, [] => True
  | l, x :: xs => h.next l = some x ∧ h.pprev x = l ∧ h.Path (.inr x) xs

/-- The place in which a path from `l` through `xs` ends. -/
def lastPlace : β ⊕ τ → List τ → β ⊕ τ
  | l, [] => l
  | _, x :: xs => lastPlace (.inr x) xs

/-- All places of a path. -/
def places (l : β ⊕ τ) (xs : List τ) : List (β ⊕ τ) := l :: xs.map Sum.inr

/-- The chain of pointers that starts at `l` runs through `xs` and ends there. -/
def Chain (h : HashLinks β τ) (l : β ⊕ τ) (xs : List τ) : Prop :=
  h.Path l xs ∧ h.next (lastPlace l xs) = none

theorem lastPlace_mem (l : β ⊕ τ) (xs : List τ) : lastPlace l xs ∈ places l xs := by
  induction xs generalizing l with
  | nil => exact List.mem_cons_self
  | cons x xs ih => exact List.mem_cons_of_mem l (ih (.inr x))

theorem chain_nil : h.Chain l [] ↔ h.next l = none := and_iff_right trivial

theorem chain_cons :
    h.Chain l (x :: xs) ↔ h.next l = some x ∧ h.pprev x = l ∧ h.Chain (.inr x) xs := by
  unfold Chain
  rw [Path, lastPlace, and_assoc, and_assoc]

theorem chain_append :
    h.Chain l (xs ++ ys) ↔ h.Path l xs ∧ h.Chain (lastPlace l xs) ys := by
  induction xs generalizing l with
  | nil => exact (and_iff_right trivial).symm
  | cons x xs ih => rw [List.cons_append, chain_cons, ih, Path, lastPlace, and_assoc, and_assoc]

theorem Chain.next_eq (hc : h.Chain l xs) : h.next l = xs.head? := by
  cases xs with
  | nil => exact chain_nil.mp hc
  | cons x xs => exact (chain_cons.mp hc).1

/-- A path does not depend on what its last place holds. -/
theorem Path.congr (hp : h.Path l xs) (hnodup : (places l xs).Nodup)
    (hnext : ∀ a ∈ places l xs, a ≠ lastPlace l xs → h'.next a = h.next a)
    (hpprev : ∀ x ∈ xs, h'.pprev x = h.pprev x) : h'.Path l xs := by
  induction xs generalizing l with
  | nil => trivial
  | cons x xs ih =>
    obtain ⟨hl, hx, hrest⟩ := hp
    obtain ⟨hnot, htail⟩ := List.nodup_cons.mp hnodup
    refine ⟨?_, (hpprev x List.mem_cons_self).trans hx, ih hrest htail ?_ ?_⟩
    · rw [hnext l List.mem_cons_self, hl]
      intro hc
      have hlast := lastPlace_mem (.inr x : β ⊕ τ) xs
      rw [lastPlace] at hc
      rw [← hc] at hlast
      exact hnot hlast
    · exact fun a ha => hnext a (List.mem_cons_of_mem l ha)
    · exact fun y hy => hpprev y (List.mem_cons_of_mem x hy)

/-- A chain stays one while its own links stay. -/
theorem Chain.congr (hc : h.Chain l xs) (hnext : ∀ a ∈ places l xs, h'.next a = h.next a)
    (hpprev : ∀ x ∈ xs, h'.pprev x = h.pprev x) : h'.Chain l xs := by
  induction xs generalizing l with
  | nil => exact chain_nil.mpr ((hnext l List.mem_cons_self).trans (chain_nil.mp hc))
  | cons x xs ih =>
    obtain ⟨hl, hx, hrest⟩ := chain_cons.mp hc
    refine chain_cons.mpr ⟨(hnext l List.mem_cons_self).trans hl,
      (hpprev x List.mem_cons_self).trans hx, ih hrest ?_ ?_⟩
    · exact fun a ha => hnext a (List.mem_cons_of_mem l ha)
    · exact fun y hy => hpprev y (List.mem_cons_of_mem x hy)

/-! ## In front of a chain, and out of its middle -/

/-- `h'` is `h` with `x` at the front of bucket `b`. -/
structure Pushed (x : τ) (b : β) (h h' : HashLinks β τ) : Prop where
  head : h'.next (.inl b) = some x
  next_new : h'.next (.inr x) = h.next (.inl b)
  pprev_new : h'.pprev x = .inl b
  /-- the old first element is told -/
  told : ∀ y, h.next (.inl b) = some y → h'.pprev y = .inr x
  next : ∀ a, a ≠ .inl b → a ≠ .inr x → h'.next a = h.next a
  pprev : ∀ y, y ≠ x → h.next (.inl b) ≠ some y → h'.pprev y = h.pprev y

/-- `h'` is `h` without `x`. -/
structure Unlinked (x : τ) (h h' : HashLinks β τ) : Prop where
  skip : h'.next (h.pprev x) = h.next (.inr x)
  /-- the successor is told -/
  told : ∀ y, h.next (.inr x) = some y → h'.pprev y = h.pprev x
  next : ∀ a, a ≠ h.pprev x → h'.next a = h.next a
  pprev : ∀ y, h.next (.inr x) ≠ some y → h'.pprev y = h.pprev y

/-- The chain with a new head. -/
theorem Pushed.chain (hpush : Pushed x b h h') (hc : h.Chain (.inl b) xs) (hx : x ∉ xs)
    (hnodup : xs.Nodup) : h'.Chain (.inl b) (x :: xs) := by
  refine chain_cons.mpr ⟨hpush.head, hpush.pprev_new, ?_⟩
  cases xs with
  | nil => exact chain_nil.mpr (hpush.next_new.trans (chain_nil.mp hc))
  | cons y ys =>
    obtain ⟨hy, -, hrest⟩ := chain_cons.mp hc
    refine chain_cons.mpr ⟨hpush.next_new.trans hy, hpush.told y hy, ?_⟩
    apply hrest.congr
    · intro a ha
      obtain ⟨z, hz, rfl⟩ : ∃ z ∈ y :: ys, a = .inr z := by simpa [places, eq_comm] using ha
      apply hpush.next _ Sum.inr_ne_inl
      rintro ⟨⟩
      exact hx hz
    · intro z hz
      apply hpush.pprev
      · rintro rfl
        exact hx (List.mem_cons_of_mem y hz)
      · rw [hy]
        rintro ⟨⟩
        exact (List.nodup_cons.mp hnodup).1 hz

/-- The other chains are left alone. -/
theorem Pushed.chain_of_ne (hpush : Pushed x b h h') {b' : β} (hc : h.Chain (.inl b') ys)
    (hne : b' ≠ b) (hx : x ∉ ys) (hhead : ∀ y, h.next (.inl b) = some y → y ∉ ys) :
    h'.Chain (.inl b') ys := by
  apply hc.congr
  · intro a ha
    rcases List.mem_cons.mp ha with rfl | ha
    · exact hpush.next _ (fun hc => hne (Sum.inl.inj hc)) Sum.inl_ne_inr
    · obtain ⟨z, hz, rfl⟩ := List.mem_map.mp ha
      apply hpush.next _ Sum.inr_ne_inl
      rintro ⟨⟩
      exact hx hz
  · intro z hz
    apply hpush.pprev
    · rintro rfl
      exact hx hz
    · exact fun hc => hhead z hc hz

/-- The chain without one of its elements. -/
theorem Unlinked.chain (hun : Unlinked x h h') (hc : h.Chain (.inl b) (xs ++ x :: ys))
    (hnodup : (xs ++ x :: ys).Nodup) : h'.Chain (.inl b) (xs ++ ys) := by
  obtain ⟨hpath, hrest⟩ := chain_append.mp hc
  obtain ⟨-, hx, hrest⟩ := chain_cons.mp hrest
  obtain ⟨hxs, hxys, hdisjoint⟩ := List.nodup_append.mp hnodup
  obtain ⟨hnot, hys⟩ := List.nodup_cons.mp hxys
  have hsucc := hrest.next_eq
  have hnodup' : (places (.inl b) xs : List (β ⊕ τ)).Nodup := by
    refine List.nodup_cons.mpr ⟨by simp, hxs.map Sum.inr_injective⟩
  refine chain_append.mpr ⟨hpath.congr hnodup' ?_ ?_, ?_⟩
  · intro a _ ha
    apply hun.next
    rwa [hx]
  · intro z hz
    apply hun.pprev
    rw [hsucc]
    intro hc
    exact hdisjoint z hz z (List.mem_cons_of_mem x (List.mem_of_mem_head? hc)) rfl
  · cases ys with
    | nil =>
      refine chain_nil.mpr ?_
      rw [← hx, hun.skip]
      exact hsucc
    | cons y ys =>
      obtain ⟨hy, -, htail⟩ := chain_cons.mp hrest
      refine chain_cons.mpr ⟨?_, ?_, ?_⟩
      · rw [← hx, hun.skip, hy]
      · rw [hun.told y hy, hx]
      · apply htail.congr
        · intro a ha
          obtain ⟨z, hz, rfl⟩ : ∃ z ∈ y :: ys, a = .inr z := by simpa [places, eq_comm] using ha
          apply hun.next
          rw [hx]
          intro hc
          have hlast := lastPlace_mem (.inl b : β ⊕ τ) xs
          rw [← hc] at hlast
          have hmem : z ∈ xs := by simpa [places] using hlast
          exact hdisjoint z hmem z (List.mem_cons_of_mem x hz) rfl
        · intro z hz
          apply hun.pprev
          rw [hy]
          rintro ⟨⟩
          exact (List.nodup_cons.mp hys).1 hz

/-- Other chains do not change. -/
theorem Unlinked.chain_of_ne (hun : Unlinked x h h') {b' : β} (hc : h.Chain (.inl b') ys)
    (hplace : h.pprev x ∉ (places (.inl b') ys : List (β ⊕ τ)))
    (hsucc : ∀ y, h.next (.inr x) = some y → y ∉ ys) : h'.Chain (.inl b') ys := by
  apply hc.congr
  · intro a ha
    apply hun.next
    rintro rfl
    exact hplace ha
  · intro z hz
    apply hun.pprev
    exact fun hc => hsucc z hc hz

/-! ## Tables -/

/-- The buckets hold the lists `Q`. -/
structure Represents (h : HashLinks β τ) (Q : β → List τ) : Prop where
  chain : ∀ b, h.Chain (.inl b) (Q b)
  nodup : ∀ b, (Q b).Nodup
  disjoint : ∀ b b' x, x ∈ Q b → x ∈ Q b' → b = b'

namespace Represents

variable {Q : β → List τ} [DecidableEq β]

/-- **A push** puts the element at the head of its bucket. -/
theorem push (hrep : h.Represents Q) (hpush : Pushed x b h h') (hx : ∀ b, x ∉ Q b) :
    h'.Represents (Function.update Q b (x :: Q b)) := by
  have hmem : ∀ b' y, y ∈ Function.update Q b (x :: Q b) b' → y = x ∧ b' = b ∨ y ∈ Q b' := by
    intro b' y hy
    by_cases hb : b' = b
    · subst hb
      rw [Function.update_self, List.mem_cons] at hy
      exact hy.imp_left fun h => ⟨h, rfl⟩
    · rw [Function.update_of_ne hb] at hy
      exact .inr hy
  refine ⟨fun b' => ?_, fun b' => ?_, fun b₁ b₂ y h₁ h₂ => ?_⟩
  · by_cases hb : b' = b
    · subst hb
      rw [Function.update_self]
      exact hpush.chain (hrep.chain b') (hx b') (hrep.nodup b')
    · rw [Function.update_of_ne hb]
      apply hpush.chain_of_ne (hrep.chain b') hb (hx b')
      intro y hy hmem
      rw [(hrep.chain b).next_eq] at hy
      exact hb (hrep.disjoint b' b y hmem (List.mem_of_mem_head? hy))
  · by_cases hb : b' = b
    · subst hb
      rw [Function.update_self]
      exact List.nodup_cons.mpr ⟨hx b', hrep.nodup b'⟩
    · rw [Function.update_of_ne hb]
      exact hrep.nodup b'
  · rcases hmem b₁ y h₁ with ⟨hy, rfl⟩ | hy₁
    · rcases hmem b₂ y h₂ with ⟨-, rfl⟩ | hy₂
      · rfl
      · exact absurd (hy ▸ hy₂) (hx b₂)
    · rcases hmem b₂ y h₂ with ⟨hy, -⟩ | hy₂
      · exact absurd (hy ▸ hy₁) (hx b₁)
      · exact hrep.disjoint b₁ b₂ y hy₁ hy₂

variable [DecidableEq τ]

/-- **An unlinking** takes the element out of its bucket. -/
theorem unlink (hrep : h.Represents Q) (hun : Unlinked x h h') (hx : x ∈ Q b) :
    h'.Represents (Function.update Q b ((Q b).erase x)) := by
  obtain ⟨xs, ys, -, hq, herase⟩ := List.exists_erase_eq hx
  have hchain := hrep.chain b
  have hnodup := hrep.nodup b
  rw [hq] at hchain hnodup
  obtain ⟨-, hrest⟩ := chain_append.mp hchain
  obtain ⟨-, hplace, hrest⟩ := chain_cons.mp hrest
  have hmem : ∀ b' y, y ∈ Function.update Q b ((Q b).erase x) b' → y ∈ Q b' := by
    intro b' y hy
    by_cases hb : b' = b
    · subst hb
      rw [Function.update_self] at hy
      exact List.mem_of_mem_erase hy
    · rwa [Function.update_of_ne hb] at hy
  refine ⟨fun b' => ?_, fun b' => ?_, fun b₁ b₂ y h₁ h₂ => ?_⟩
  · by_cases hb : b' = b
    · subst hb
      rw [Function.update_self, herase]
      exact hun.chain hchain hnodup
    · rw [Function.update_of_ne hb]
      have hother : ∀ y ∈ Q b, y ∉ Q b' := fun y hy hy' => hb (hrep.disjoint b' b y hy' hy)
      apply hun.chain_of_ne (hrep.chain b')
      · rw [hplace]
        intro hc
        have hlast := lastPlace_mem (.inl b : β ⊕ τ) xs
        generalize lastPlace (.inl b) xs = l at hc hlast
        rcases List.mem_cons.mp hlast with rfl | hlast
        · rcases List.mem_cons.mp hc with hc | hc
          · exact hb (Sum.inl.inj hc).symm
          · simp at hc
        · obtain ⟨z, hz, rfl⟩ := List.mem_map.mp hlast
          have hz' : z ∈ Q b' := by simpa [places] using hc
          exact hother z (by rw [hq]; exact List.mem_append_left _ hz) hz'
      · intro y hy
        rw [hrest.next_eq] at hy
        apply hother
        rw [hq]
        exact List.mem_append_right _ (List.mem_cons_of_mem x (List.mem_of_mem_head? hy))
  · by_cases hb : b' = b
    · subst hb
      rw [Function.update_self]
      exact (hrep.nodup b').erase x
    · rw [Function.update_of_ne hb]
      exact hrep.nodup b'
  · exact hrep.disjoint b₁ b₂ y (hmem b₁ y h₁) (hmem b₂ y h₂)

end Represents

/-! ## Walking along a chain -/

/-- The first element of a chain with the property `p`; `none` when the fuel runs out. -/
def walk (p : τ → Bool) (h : HashLinks β τ) : ℕ → Option τ → Option (Option τ)
  | _, none => some none
  | 0, some _ => none
  | n + 1, some x => if p x then some (some x) else walk p h n (h.next (.inr x))

/-- **The walk** along a chain finds the first element that passes the test. -/
theorem Chain.walk_eq {p : τ → Bool} (hc : h.Chain l xs) {n : ℕ} (hn : xs.length ≤ n) :
    walk p h n (h.next l) = some (xs.find? p) := by
  induction xs generalizing l n with
  | nil =>
    rw [chain_nil.mp hc, walk]
    rfl
  | cons x xs ih =>
    obtain ⟨hl, -, hrest⟩ := chain_cons.mp hc
    obtain ⟨n, rfl⟩ := Nat.exists_eq_add_of_le' (Nat.one_le_of_lt (Nat.lt_of_lt_of_le
      (List.length_pos_of_ne_nil (List.cons_ne_nil x xs)) hn))
    rw [hl, walk, List.find?_cons]
    cases p x with
    | true => rfl
    | false => exact ih hrest (Nat.le_of_succ_le_succ hn)

end HashLinks
end General
