import Mathlib.Data.List.Basic
import Mathlib.Order.Defs.PartialOrder

/-!
# Runs of a labelled transition relation

A system is a relation `R : σ → ι → σ → Prop`: `R s i s'` says that label `i` may take
state `s` to state `s'`. This file has what every safety argument needs and nothing else:

* `Run R s is s'`, the runs with their labels;
* the invariant rule `Run.invariant` and its relational form `Run.relates`;
* the simulation rule `Run.simulates`;
* the measure rule `Run.antitone_iff`, for a measure that some steps may raise;
* the counting rule `Run.measure_eq_add_countP`;
* the rule `Run.always_iff` for a property that some steps may break;
* the drain rule `Run.exists_of_measure`;
* `Guarded`, runs whose steps all meet a condition on the state before the step;
* `runWith`, which computes the runs of a function;
* `Ghost`, a run that carries a history variable, and the two theorems that say a history
  variable neither adds nor removes runs.
-/

namespace General

variable {σ τ ι γ : Type*}

/-- The runs of `R`, with the labels in the order in which they are taken. -/
inductive Run (R : σ → ι → σ → Prop) : σ → List ι → σ → Prop
  | nil (s : σ) : Run R s [] s
  | cons {s s' s'' : σ} {i : ι} {is : List ι} (step : R s i s') (rest : Run R s' is s'') :
      Run R s (i :: is) s''

namespace Run

variable {R R' : σ → ι → σ → Prop} {s s' s'' : σ} {i : ι} {is js : List ι}

/-- The empty run. -/
theorem nil_iff : Run R s [] s' ↔ s' = s := by
  constructor
  · intro h
    cases h
    rfl
  · rintro rfl
    exact Run.nil _

/-- A run that begins with a step. -/
theorem cons_iff : Run R s (i :: is) s'' ↔ ∃ s', R s i s' ∧ Run R s' is s'' := by
  constructor
  · intro h
    cases h with
    | cons step rest => exact ⟨_, step, rest⟩
  · rintro ⟨s', step, rest⟩
    exact Run.cons step rest

theorem single (step : R s i s') : Run R s [i] s' := Run.cons step (Run.nil _)

theorem single_iff : Run R s [i] s' ↔ R s i s' := by
  constructor
  · intro h
    obtain ⟨s'', step, rest⟩ := cons_iff.mp h
    rwa [nil_iff.mp rest]
  · exact single

theorem append (h : Run R s is s') (h' : Run R s' js s'') : Run R s (is ++ js) s'' := by
  induction h with
  | nil => exact h'
  | cons step _ ih => exact Run.cons step (ih h')

/-- Two runs, one after the other. -/
theorem append_iff : Run R s (is ++ js) s'' ↔ ∃ s', Run R s is s' ∧ Run R s' js s'' := by
  constructor
  · intro h
    induction is generalizing s with
    | nil => exact ⟨s, Run.nil s, h⟩
    | cons i is ih =>
      obtain ⟨t, step, rest⟩ := cons_iff.mp h
      obtain ⟨u, hu, hjs⟩ := ih rest
      exact ⟨u, Run.cons step hu, hjs⟩
  · rintro ⟨u, hu, hjs⟩
    exact hu.append hjs

/-- More steps allowed, more runs. -/
theorem mono (hR : ∀ s i s', R s i s' → R' s i s') (h : Run R s is s') : Run R' s is s' := by
  induction h with
  | nil => exact Run.nil _
  | cons step _ ih => exact Run.cons (hR _ _ _ step) ih

/-- **The invariant rule.** What every step preserves, every run preserves. -/
theorem invariant {P : σ → Prop} (hstep : ∀ s i s', P s → R s i s' → P s')
    (h : Run R s is s') (hs : P s) : P s' := by
  induction h with
  | nil => exact hs
  | cons step _ ih => exact ih (hstep _ _ _ hs step)

/-- The relational form of the invariant rule: a preorder that every step respects under an
invariant relates the two ends of every run. -/
theorem relates {P : σ → Prop} {Q : σ → σ → Prop} (hrefl : ∀ s, Q s s)
    (htrans : ∀ s t u, Q s t → Q t u → Q s u) (hinv : ∀ s i s', P s → R s i s' → P s')
    (hstep : ∀ s i s', P s → R s i s' → Q s s') (h : Run R s is s') (hs : P s) : Q s s' := by
  induction h with
  | nil => exact hrefl _
  | cons step _ ih => exact htrans _ _ _ (hstep _ _ _ hs step) (ih (hinv _ _ _ hs step))

/-- **The simulation rule.** A relation that every step of `R` can be matched under relates every
run of `R` to a run over the same labels. -/
theorem simulates {S : τ → ι → τ → Prop} {M : τ → σ → Prop}
    (hstep : ∀ t s i s', M t s → R s i s' → ∃ t', S t i t' ∧ M t' s') (h : Run R s is s') {t : τ}
    (ht : M t s) : ∃ t', Run S t is t' ∧ M t' s' := by
  induction h generalizing t with
  | nil => exact ⟨t, Run.nil t, ht⟩
  | cons step _ ih =>
    obtain ⟨t₁, step', ht₁⟩ := hstep _ _ _ _ ht step
    obtain ⟨t', rest', ht'⟩ := ih ht₁
    exact ⟨t', Run.cons step' rest', ht'⟩

/-- **The counting rule.** A measure that every step with a label in `C` raises by one, and that no
other step changes, counts the labels in `C`. -/
theorem measure_eq_add_countP {m : σ → ℕ} {C : ι → Prop} [DecidablePred C]
    (hstep : ∀ s i s', R s i s' → m s' = m s + if C i then 1 else 0) (h : Run R s is s') :
    m s' = m s + is.countP (C ·) := by
  induction h with
  | nil => rfl
  | cons step _ ih =>
    rw [ih, hstep _ _ _ step, List.countP_cons, Nat.add_assoc, Nat.add_comm (ite _ _ _)]
    simp only [decide_eq_true_eq]

/-- A functional relation has one run over given labels. -/
theorem functional (hR : ∀ s i t u, R s i t → R s i u → t = u) {t u : σ} (ht : Run R s is t)
    (hu : Run R s is u) : t = u := by
  induction ht with
  | nil => exact (nil_iff.mp hu).symm
  | cons step _ ih =>
    obtain ⟨s', step', rest'⟩ := cons_iff.mp hu
    rw [hR _ _ _ _ step' step] at rest'
    exact ih rest'

/-- **The drain rule.** If in every state whose measure is not zero some step with a label in `C`
lowers the measure, then steps with labels in `C` bring it to zero. -/
theorem exists_of_measure {m : σ → ℕ} {C : ι → Prop} {P : σ → Prop}
    (hstep : ∀ s, P s → m s ≠ 0 → ∃ i s', C i ∧ R s i s' ∧ P s' ∧ m s' < m s) {s : σ} (hs : P s) :
    ∃ is s', Run R s is s' ∧ (∀ i ∈ is, C i) ∧ P s' ∧ m s' = 0 := by
  generalize hn : m s = n
  induction n using Nat.strongRecOn generalizing s with
  | ind n ih =>
    by_cases hzero : m s = 0
    · exact ⟨[], s, Run.nil s, nofun, hs, hzero⟩
    obtain ⟨i, t, hi, step, ht, hlt⟩ := hstep s hs hzero
    obtain ⟨is, s', hrest, his, hend⟩ := ih (m t) (hn ▸ hlt) ht rfl
    exact ⟨i :: is, s', Run.cons step hrest, List.forall_mem_cons.mpr ⟨hi, his⟩, hend⟩

/-- A run whose steps are runs is a run. -/
theorem flatten {iss : List (List ι)} (h : Run (Run R) s iss s') : Run R s iss.flatten s' := by
  induction h with
  | nil => exact Run.nil _
  | cons step _ ih =>
    rw [List.flatten_cons]
    exact step.append ih

/-- The drain rule, where several steps together lower the measure. -/
theorem exists_of_measure_run {m : σ → ℕ} {P : σ → Prop}
    (hstep : ∀ s, P s → m s ≠ 0 → ∃ is s', Run R s is s' ∧ P s' ∧ m s' < m s) {s : σ} (hs : P s) :
    ∃ is s', Run R s is s' ∧ P s' ∧ m s' = 0 := by
  have hruns : ∀ s, P s → m s ≠ 0 → ∃ is s', True ∧ Run R s is s' ∧ P s' ∧ m s' < m s := by
    intro s hs hzero
    obtain ⟨is, s', hrun, hlower⟩ := hstep s hs hzero
    exact ⟨is, s', trivial, hrun, hlower⟩
  obtain ⟨iss, s', hrun, -, hend⟩ := exists_of_measure hruns hs
  exact ⟨iss.flatten, s', hrun.flatten, hend⟩

/-- A property that a step keeps iff the state before it meets `G` holds in all states of a run iff
all its steps meet `G`. -/
theorem always_iff {P Q : σ → Prop} {G : σ → ι → Prop}
    (hR : ∀ s i t u, R s i t → R s i u → t = u) (hinv : ∀ s i s', P s → R s i s' → P s')
    (hstep : ∀ s i s', P s → Q s → R s i s' → (Q s' ↔ G s i)) (hrun : Run R s is s') (hs : P s)
    (hQ : Q s) :
    (∀ pre post t, is = pre ++ post → Run R s pre t → Q t) ↔
      ∀ pre i post t, is = pre ++ i :: post → Run R s pre t → G t i := by
  induction hrun with
  | nil s =>
    refine iff_of_true (fun pre post t his ht => ?_) fun pre i post t his => ?_
    · obtain ⟨rfl, -⟩ := List.append_eq_nil_iff.mp his.symm
      rwa [nil_iff.mp ht]
    · exact absurd (List.append_eq_nil_iff.mp his.symm).2 (List.cons_ne_nil i post)
  | @cons s s₁ s' i is step _ ih =>
    have hG := hstep s i s₁ hs hQ step
    constructor
    · intro h pre j post t his ht
      have hQ₁ := h [i] is s₁ rfl (single step)
      cases pre with
      | nil =>
        obtain ⟨rfl, -⟩ := List.cons.inj his
        rw [nil_iff.mp ht]
        exact hG.mp hQ₁
      | cons k pre =>
        obtain ⟨rfl, hrest⟩ := List.cons.inj his
        obtain ⟨u, step', ht⟩ := cons_iff.mp ht
        obtain rfl := hR _ _ _ _ step step'
        refine (ih (hinv s i s₁ hs step) hQ₁).mp (fun pre post t his ht => ?_) pre j post t hrest ht
        exact h (i :: pre) post t (by rw [his, List.cons_append]) (Run.cons step ht)
    · intro h pre post t his ht
      have hQ₁ := hG.mpr (h [] i is s rfl (Run.nil s))
      cases pre with
      | nil => rwa [nil_iff.mp ht]
      | cons k pre =>
        obtain ⟨rfl, hrest⟩ := List.cons.inj his
        obtain ⟨u, step', ht⟩ := cons_iff.mp ht
        obtain rfl := hR _ _ _ _ step step'
        refine (ih (hinv s i s₁ hs step) hQ₁).mpr (fun pre j post t his ht => ?_) pre post t hrest
          ht
        exact h (i :: pre) j post t (by rw [his, List.cons_append]) (Run.cons step ht)

/-- **The measure rule.** A measure never rises between two states of a run iff no step of the run
is one that raises it. -/
theorem antitone_iff {α : Type*} [Preorder α] {m : σ → α} {C : σ → ι → Prop}
    (hR : ∀ s i t u, R s i t → R s i u → t = u)
    (hstep : ∀ s i t, R s i t → (m t ≤ m s ↔ ¬C s i)) (hrun : Run R s is s') :
    (∀ pre mid post t u, is = pre ++ mid ++ post → Run R s pre t → Run R t mid u → m u ≤ m t) ↔
      ∀ pre i post t, is = pre ++ i :: post → Run R s pre t → ¬C t i := by
  constructor
  · intro h pre i post t his ht
    -- the run takes label `i` from `t`
    rw [his, append_iff] at hrun
    obtain ⟨t', ht', hrest⟩ := hrun
    obtain rfl := functional hR ht ht'
    obtain ⟨u, step, -⟩ := cons_iff.mp hrest
    rw [← hstep t i u step]
    exact h pre [i] post t u (by simp [his]) ht (single step)
  · intro h pre mid
    induction mid generalizing pre with
    | nil =>
      intro post t u _ _ hmid
      rw [nil_iff.mp hmid]
    | cons i mid ih =>
      intro post t u his ht hmid
      obtain ⟨v, step, hmid⟩ := cons_iff.mp hmid
      have hfirst : m v ≤ m t := by
        rw [hstep t i v step]
        exact h pre i (mid ++ post) t (by simp [his]) ht
      have hlater : m u ≤ m v :=
        ih (pre ++ [i]) post v u (by simp [his]) (ht.append (single step)) hmid
      exact le_trans hlater hfirst

end Run

/-- `R` restricted to steps whose state before the step meets the condition `G`. -/
def Guarded (G : σ → ι → Prop) (R : σ → ι → σ → Prop) (s : σ) (i : ι) (s' : σ) : Prop :=
  G s i ∧ R s i s'

/-- A run whose labels meet the condition in every state. -/
theorem Run.guarded {G : σ → ι → Prop} {R : σ → ι → σ → Prop} {s s' : σ} {is : List ι}
    (h : Run R s is s') (hG : ∀ i ∈ is, ∀ s, G s i) : Run (Guarded G R) s is s' := by
  induction h with
  | nil => exact Run.nil _
  | cons step _ ih =>
    have hrest := ih fun i hi => hG i (List.mem_cons_of_mem _ hi)
    exact Run.cons ⟨hG _ List.mem_cons_self _, step⟩ hrest

/-! ## Runs of a function -/

/-- The state after a list of labels, if the function takes each of them. -/
def runWith (f : σ → ι → Option σ) : List ι → σ → Option σ
  | [], s => some s
  | i :: is, s => f s i >>= runWith f is

/-- Runs of a step function can be computed. -/
theorem run_iff_runWith {R : σ → ι → σ → Prop} {f : σ → ι → Option σ}
    (hf : ∀ s i s', R s i s' ↔ f s i = some s') {s s' : σ} {is : List ι} :
    Run R s is s' ↔ runWith f is s = some s' := by
  induction is generalizing s with
  | nil => rw [Run.nil_iff, runWith, Option.some.injEq, eq_comm]
  | cons i is ih =>
    rw [Run.cons_iff, runWith, Option.bind_eq_bind, Option.bind_eq_some_iff]
    simp only [hf, ih]

/-! ## History variables -/

/-- `R` carrying a history variable: `upd` says how a step changes it. -/
def Ghost (R : σ → ι → σ → Prop) (upd : σ → ι → γ → γ) (x : σ × γ) (i : ι) (y : σ × γ) : Prop :=
  R x.1 i y.1 ∧ y.2 = upd x.1 i x.2

namespace Run

variable {R : σ → ι → σ → Prop} {upd : σ → ι → γ → γ} {s s' : σ} {is : List ι}

/-- A history variable removes no run. -/
theorem exists_ghost (h : Run R s is s') (g : γ) : ∃ g', Run (Ghost R upd) (s, g) is (s', g') := by
  induction h generalizing g with
  | nil => exact ⟨g, Run.nil _⟩
  | @cons s t u i is step _ ih =>
    obtain ⟨g', hg⟩ := ih (upd s i g)
    have hstep : Ghost R upd (s, g) i (t, upd s i g) := ⟨step, rfl⟩
    exact ⟨g', Run.cons hstep hg⟩

/-- A history variable adds no run. -/
theorem of_ghost {x y : σ × γ} (h : Run (Ghost R upd) x is y) : Run R x.1 is y.1 := by
  induction h with
  | nil => exact Run.nil _
  | cons step _ ih => exact Run.cons step.1 ih

end Run

end General
