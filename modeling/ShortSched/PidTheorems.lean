import ShortSched.Pids

/-!
# What `get_pid` returns

The numbers that `get_pid` tries follow one another in a cycle from `last_pid`: up to `PID_MAX`,
and from 300 again. It returns the first one that no task uses, and bounds the next calls by the
smallest number in use above it.
-/

namespace ShortSched

open General

namespace TaskIds

/-- What one task does to the bound of the search. -/
theorem bound_spec (p : TaskIds) (lastPid nextSafe : ℤ) :
    p.bound lastPid nextSafe ≤ nextSafe ∧
      (lastPid < nextSafe → lastPid < p.bound lastPid nextSafe) ∧
      ∀ n, p.Uses n → lastPid < n → p.bound lastPid nextSafe ≤ n := by
  unfold bound
  dsimp only
  refine ⟨?_, fun h => ?_, fun n hn hlt => ?_⟩
  · split <;> split <;> split <;> split <;> omega
  · split <;> split <;> split <;> split <;> omega
  · rcases hn with rfl | rfl | rfl | rfl <;> split <;> split <;> split <;> split <;> omega

end TaskIds

namespace PidAlloc

variable {ps : List TaskIds} {a a' : PidAlloc} {beginpid : ℤ}

/-- A task uses the number. -/
def Taken (ps : List TaskIds) (n : ℤ) : Prop := ∃ p ∈ ps, p.Uses n

instance (ps : List TaskIds) (n : ℤ) : Decidable (Taken ps n) := by
  unfold Taken
  infer_instance

/-- No number behind `last_pid` and before `next_safe` is in use. -/
structure Safe (ps : List TaskIds) (a : PidAlloc) : Prop where
  nonneg : 0 ≤ a.lastPid
  lt : a.lastPid < a.nextSafe
  le : a.nextSafe ≤ pidMax
  free : ∀ n, a.lastPid < n → n < a.nextSafe → ¬Taken ps n

/-- In range only the maximum overflows. -/
theorem overflows_iff {n : ℤ} (h : 0 ≤ n ∧ n ≤ pidMax) : Overflows n ↔ n = pidMax := by
  obtain ⟨m, rfl⟩ := Int.eq_ofNat_of_zero_le h.1
  have hmax : pidMax = 0x8000 := rfl
  rw [hmax] at h ⊢
  constructor
  · intro hover
    by_contra hne
    have hm : m < 2 ^ 15 := by omega
    apply hover
    rw [← UInt32.toNat_inj, UInt32.toNat_and]
    have hof : (UInt32.ofInt (m : ℤ)).toNat = m := by
      rw [UInt32.ofInt]
      simp
      omega
    rw [hof]
    apply Nat.eq_of_testBit_eq
    intro i
    rw [Nat.testBit_and]
    -- `m` has no bit from 15 on, and the mask none below
    by_cases hi : i < 15
    · have hmask : (0xffff8000 : UInt32).toNat = 131071 <<< 15 := rfl
      rw [hmask, Nat.testBit_shiftLeft, decide_eq_false (by omega)]
      simp
    · have hpow : m < 2 ^ i := lt_of_lt_of_le hm (Nat.pow_le_pow_right (by omega) (by omega))
      rw [Nat.testBit_lt_two_pow hpow]
      simp
  · intro heq
    rw [heq]
    decide

/-! ## The scan of the task list -/

/-- What a scan of the task list finds out. -/
structure Scanned (ps : List TaskIds) (lastPid nextSafe : ℤ) (r : Bool × ℤ) : Prop where
  taken : r.1 = true ↔ Taken ps lastPid
  le : r.2 ≤ nextSafe
  lt : lastPid < nextSafe → lastPid < r.2
  bound : r.1 = false → ∀ n, Taken ps n → lastPid < n → r.2 ≤ n

/-- **One scan of the tasks**: it ends at a number in use, or with a safe bound. -/
theorem scan_spec (ps : List TaskIds) (lastPid nextSafe : ℤ) :
    Scanned ps lastPid nextSafe (scan lastPid ps nextSafe) := by
  induction ps generalizing nextSafe with
  | nil => exact ⟨by simp [scan, Taken], le_rfl, id, fun _ n hn => by simp [Taken] at hn⟩
  | cons p ps ih =>
    rw [scan]
    by_cases hp : p.Uses lastPid
    · rw [if_pos hp]
      exact ⟨iff_of_true rfl ⟨p, List.mem_cons_self, hp⟩, le_rfl, id, nofun⟩
    · rw [if_neg hp]
      obtain ⟨hle, hlt, hbound⟩ := p.bound_spec lastPid nextSafe
      obtain ⟨htaken, hle', hlt', hbound'⟩ := ih (p.bound lastPid nextSafe)
      refine ⟨?_, hle'.trans hle, fun h => hlt' (hlt h), fun hfree n hn hgt => ?_⟩
      · rw [htaken]
        constructor
        · rintro ⟨q, hq, huses⟩
          exact ⟨q, List.mem_cons_of_mem p hq, huses⟩
        · rintro ⟨q, hq, huses⟩
          rcases List.mem_cons.mp hq with rfl | hq
          · exact absurd huses hp
          · exact ⟨q, hq, huses⟩
      · obtain ⟨q, hq, huses⟩ := hn
        rcases List.mem_cons.mp hq with rfl | hq
        · exact hle'.trans (hbound n huses hgt)
        · exact hbound' hfree n ⟨q, hq, huses⟩ hgt

/-! ## The cycle of numbers -/

/-- The number that is tried after `n`. -/
def succPid (n : ℤ) : ℤ := if n + 1 = pidMax then 300 else n + 1

/-- How many numbers after `n` the number `t` is tried. -/
def pidDist (n t : ℤ) : ℤ := if n ≤ t then t - n else pidMax - n + (t - 300)

/-- `last_pid` is a pid and `next_safe` is above it. -/
structure InRange (a : PidAlloc) : Prop where
  pos : 0 < a.lastPid
  lt : a.lastPid < a.nextSafe
  le : a.nextSafe ≤ pidMax

theorem InRange.lt_pidMax (h : InRange a) : a.lastPid < pidMax := lt_of_lt_of_le h.lt h.le

theorem InRange.scan (h : InRange a) :
    InRange { a with nextSafe := (scan a.lastPid ps a.nextSafe).2 } :=
  ⟨h.pos, (scan_spec ps _ _).lt h.lt, (scan_spec ps _ _).le.trans h.le⟩

/-- `++last_pid`, with the step back to 300. -/
theorem InRange.advance (h : InRange a) :
    InRange a.advance ∧ a.advance.lastPid = succPid a.lastPid := by
  obtain ⟨hpos, hlt, hle⟩ := h
  have hover : Overflows (a.lastPid + 1) ↔ a.lastPid + 1 = pidMax := overflows_iff ⟨by omega, by omega⟩
  have hmax : pidMax = 0x8000 := rfl
  unfold PidAlloc.advance succPid
  dsimp only
  rw [if_congr hover rfl rfl]
  split <;> split
  · exact ⟨⟨by dsimp only; omega, by dsimp only; omega, le_rfl⟩, rfl⟩
  · exact ⟨⟨by dsimp only; omega, by dsimp only; omega, le_rfl⟩, rfl⟩
  · omega
  · exact ⟨⟨by dsimp only; omega, by dsimp only; omega, hle⟩, rfl⟩

/-- A number that is still to come is one step nearer. -/
theorem pidDist_succPid {n t : ℤ} (hn : n < pidMax) (ht : t < pidMax) (hne : n ≠ t)
    (hcome : n ≤ t ∨ 300 ≤ t) :
    pidDist (succPid n) t = pidDist n t - 1 ∧ (succPid n ≤ t ∨ 300 ≤ t) := by
  have hmax : pidMax = 0x8000 := rfl
  unfold pidDist succPid
  split <;> split <;> split <;> omega

theorem pidDist_nonneg {n t : ℤ} (hn : n < pidMax) (hcome : n ≤ t ∨ 300 ≤ t) : 0 ≤ pidDist n t := by
  unfold pidDist
  split <;> omega

theorem eq_of_pidDist_eq_zero {n t : ℤ} (hn : n < pidMax) (hcome : n ≤ t ∨ 300 ≤ t)
    (h : pidDist n t = 0) : n = t := by
  unfold pidDist at h
  split at h <;> omega

/-! ## The code from `repeat` on -/

/-- One round. -/
theorem repeatScan_succ (ps : List TaskIds) (beginpid : ℤ) (n : ℕ) (h : InRange a) :
    ∃ nextSafe, InRange { a with nextSafe := nextSafe } ∧
      (¬Taken ps a.lastPid → Safe ps { a with nextSafe := nextSafe } ∧
        repeatScan ps beginpid (n + 1) a = some (a.lastPid, { a with nextSafe := nextSafe })) ∧
      (Taken ps a.lastPid → ∃ b : PidAlloc, InRange b ∧ b.lastPid = succPid a.lastPid ∧
        repeatScan ps beginpid (n + 1) a =
          if b.lastPid = beginpid then some (0, b) else repeatScan ps beginpid n b) := by
  have hscan := scan_spec ps a.lastPid a.nextSafe
  have hrange : InRange { a with nextSafe := (scan a.lastPid ps a.nextSafe).2 } := h.scan
  refine ⟨_, hrange, fun hfree => ?_, fun htaken => ?_⟩
  · have hfalse : (scan a.lastPid ps a.nextSafe).1 = false := by
      rw [← Bool.not_eq_true, hscan.taken]
      exact hfree
    refine ⟨⟨hrange.pos.le, hrange.lt, hrange.le, fun n hgt hlt hn => ?_⟩, ?_⟩
    · exact absurd (hscan.bound hfalse n hn hgt) (not_le.mpr hlt)
    · rw [repeatScan]
      dsimp only
      rw [if_neg (by rw [hfalse]; exact Bool.false_ne_true)]
  · obtain ⟨hnext, hsucc⟩ := hrange.advance
    refine ⟨_, hnext, hsucc, ?_⟩
    rw [repeatScan]
    dsimp only
    rw [if_pos (hscan.taken.mpr htaken)]

/-- The loop does not come past `beginpid`. -/
def Ahead (beginpid n : ℤ) : Prop := beginpid < n ∨ 300 ≤ beginpid ∧ n ≠ beginpid

theorem Ahead.succPid {n : ℤ} (h : Ahead beginpid n) (hne : succPid n ≠ beginpid) :
    Ahead beginpid (succPid n) := by
  unfold Ahead PidAlloc.succPid at *
  split <;> omega

/-- How the loop ends: with a free number, or back at `beginpid`. -/
inductive RepeatResult (ps : List TaskIds) (beginpid : ℤ) (a : PidAlloc) : ℤ → PidAlloc → Prop
  | found (a' : PidAlloc) (hfree : ¬Taken ps a'.lastPid) (hsafe : Safe ps a')
      (hpos : 0 < a'.lastPid) (hne : a'.lastPid ≠ beginpid)
      (hfrom : a.lastPid ≤ a'.lastPid ∨ 300 ≤ a'.lastPid)
      (hwrap : a'.lastPid < a.lastPid → ∀ n, a.lastPid ≤ n → n < pidMax → Taken ps n) :
      RepeatResult ps beginpid a a'.lastPid a'
  | nomorepids (a' : PidAlloc) (hbegin : 300 ≤ beginpid) (hback : a'.lastPid = beginpid)
      (hrange : InRange a')
      (hall : ∀ n, a.lastPid ≤ n ∨ 300 ≤ n → n < pidMax →
        pidDist a.lastPid n < pidDist a.lastPid beginpid → Taken ps n) :
      RepeatResult ps beginpid a 0 a'

/-- **The search** ends with a free number, or where it began. -/
theorem repeatScan_result {n : ℕ} {pid : ℤ} (h : InRange a) (hahead : Ahead beginpid a.lastPid)
    (hbegin : beginpid < pidMax) (hcall : repeatScan ps beginpid n a = some (pid, a')) :
    RepeatResult ps beginpid a pid a' := by
  induction n generalizing a with
  | zero => cases hcall
  | succ n ih =>
    obtain ⟨nextSafe, hrange, hfound, hnext⟩ := repeatScan_succ ps beginpid n h
    by_cases htaken : Taken ps a.lastPid
    swap
    · obtain ⟨hsafe, hresult⟩ := hfound htaken
      rw [hresult] at hcall
      cases hcall
      have hne : a.lastPid ≠ beginpid := by
        unfold Ahead at hahead
        omega
      exact .found { a with nextSafe := nextSafe } htaken hsafe h.pos hne (.inl le_rfl)
        fun hlt => absurd hlt (lt_irrefl _)
    obtain ⟨b, hb, hsucc, hresult⟩ := hnext htaken
    rw [hresult] at hcall
    have hlt := h.lt_pidMax
    by_cases hback : b.lastPid = beginpid
    · rw [if_pos hback] at hcall
      cases hcall
      have hge : 300 ≤ beginpid := by
        rw [hsucc] at hback
        unfold Ahead at hahead
        unfold succPid at hback
        split at hback <;> omega
      refine .nomorepids _ hge hback hb fun m hm hmax hdist => ?_
      -- `beginpid` is the next number, so that only `last_pid` itself is nearer
      have hne : a.lastPid ≠ beginpid := by
        unfold Ahead at hahead
        omega
      have hone := (pidDist_succPid hlt hbegin hne (.inr hge)).1
      have hself : pidDist (succPid a.lastPid) beginpid = 0 := by
        rw [← hsucc, hback]
        unfold pidDist
        rw [if_pos le_rfl, Int.sub_self]
      have hnonneg := pidDist_nonneg hlt hm
      rw [← eq_of_pidDist_eq_zero hlt hm (by omega)]
      exact htaken
    · rw [if_neg hback] at hcall
      have hahead' : Ahead beginpid b.lastPid := by
        rw [hsucc] at hback ⊢
        exact hahead.succPid hback
      cases ih hb hahead' hcall with
      | found a' hfree hsafe hpos hne hfrom hwrap =>
        have hfrom' : a.lastPid ≤ a'.lastPid ∨ 300 ≤ a'.lastPid := by
          rw [hsucc] at hfrom
          unfold succPid at hfrom
          split at hfrom <;> omega
        refine .found a' hfree hsafe hpos hne hfrom' fun hlt' m hm hmax => ?_
        by_cases hma : m = a.lastPid
        · rw [hma]
          exact htaken
        · have hb' : b.lastPid = a.lastPid + 1 := by
            rw [hsucc, succPid, if_neg (by omega)]
          exact hwrap (by omega) m (by omega) hmax
      | nomorepids a' hge hback' hrange' hall =>
        refine .nomorepids a' hge hback' hrange' fun m hm hmax hdist => ?_
        by_cases hma : m = a.lastPid
        · rw [hma]
          exact htaken
        · have hne : a.lastPid ≠ beginpid := by
            unfold Ahead at hahead
            omega
          obtain ⟨hm', hcome⟩ := pidDist_succPid hlt hmax (Ne.symm hma) hm
          have hbegin' := (pidDist_succPid hlt hbegin hne (.inr hge)).1
          rw [← hsucc] at hm' hbegin' hcome
          exact hall m hcome hmax (by omega)

/-- **Termination**: a free number or `beginpid` is reached. -/
theorem repeatScan_isSome {n : ℕ} {t : ℤ} (h : InRange a) (hahead : Ahead beginpid a.lastPid)
    (ht : t < pidMax) (hcome : a.lastPid ≤ t ∨ 300 ≤ t) (hstop : ¬Taken ps t ∨ t = beginpid)
    (hdist : pidDist a.lastPid t < n) : (repeatScan ps beginpid n a).isSome := by
  induction n generalizing a with
  | zero => exact absurd (pidDist_nonneg h.lt_pidMax hcome) (by push_cast at hdist; omega)
  | succ n ih =>
    obtain ⟨nextSafe, hrange, hfound, hnext⟩ := repeatScan_succ ps beginpid n h
    by_cases htaken : Taken ps a.lastPid
    swap
    · rw [(hfound htaken).2]
      rfl
    obtain ⟨b, hb, hsucc, hresult⟩ := hnext htaken
    rw [hresult]
    by_cases hback : b.lastPid = beginpid
    · rw [if_pos hback]
      rfl
    · rw [if_neg hback]
      have hne : a.lastPid ≠ t := by
        rintro rfl
        rcases hstop with hfree | rfl
        · exact hfree htaken
        · unfold Ahead at hahead
          omega
      obtain ⟨hstep, hcome'⟩ := pidDist_succPid h.lt_pidMax ht hne hcome
      rw [hsucc] at hback
      apply ih hb
      · rw [hsucc]
        exact hahead.succPid hback
      · rwa [hsucc]
      · rw [hsucc, hstep]
        push_cast at hdist
        omega

/-- The loop never ends when it starts below 300 and all numbers are in use. -/
theorem repeatScan_eq_none (n : ℕ) (h : InRange a) (hahead : beginpid < a.lastPid)
    (hbegin : beginpid < 300) (hall : ∀ n, beginpid < n → n < pidMax → Taken ps n) :
    repeatScan ps beginpid n a = none := by
  induction n generalizing a with
  | zero => rfl
  | succ n ih =>
    obtain ⟨nextSafe, hrange, -, hnext⟩ := repeatScan_succ ps beginpid n h
    obtain ⟨b, hb, hsucc, hresult⟩ := hnext (hall _ hahead h.lt_pidMax)
    have hahead' : beginpid < b.lastPid := by
      rw [hsucc, succPid]
      split <;> omega
    rw [hresult, if_neg (by omega)]
    exact ih hb hahead'

/-! ## `get_pid` -/

/-- The next number is known to be free, or is tried first. -/
theorem getPid_cases {cloneFlags : UInt32} (current : ℤ) (fuel : ℕ) (h : a.Safe ps)
    (hflags : cloneFlags &&& clonePid = 0) :
    (a.lastPid + 1 < a.nextSafe ∧ a.getPid fuel ps cloneFlags current =
        some (a.lastPid + 1, { a with lastPid := a.lastPid + 1 })) ∨
      ∃ b : PidAlloc, InRange b ∧ b.lastPid = succPid a.lastPid ∧
        a.getPid fuel ps cloneFlags current = repeatScan ps a.lastPid fuel b := by
  obtain ⟨hnonneg, hlt, hle, -⟩ := h
  have hmax : pidMax = 0x8000 := rfl
  have hover : Overflows (a.lastPid + 1) ↔ a.lastPid + 1 = pidMax := overflows_iff ⟨by omega, by omega⟩
  unfold getPid succPid
  rw [if_neg (not_not.mpr hflags)]
  dsimp only
  rw [if_congr hover rfl rfl]
  by_cases hwrap : a.lastPid + 1 = pidMax
  · rw [if_pos hwrap, if_pos hwrap]
    exact .inr ⟨⟨300, pidMax⟩, ⟨by simp, by simp [hmax], le_rfl⟩, rfl, rfl⟩
  rw [if_neg hwrap, if_neg hwrap]
  by_cases hscan : a.lastPid + 1 ≥ a.nextSafe
  · rw [if_pos hscan]
    exact .inr ⟨⟨a.lastPid + 1, pidMax⟩, ⟨by dsimp only; omega, by dsimp only; omega, le_rfl⟩, rfl, rfl⟩
  · rw [if_neg hscan]
    exact .inl ⟨not_le.mp hscan, rfl⟩

/-- **`get_pid`** loops for ever exactly if it starts below 300 with all higher numbers in use. It
fails exactly if all numbers from 300 on but the last one are in use. Otherwise it returns a number
that no task uses, and remembers up to where the numbers behind it are free. -/
theorem getPid_spec {cloneFlags : UInt32} {current : ℤ} {fuel : ℕ} (h : a.Safe ps)
    (hflags : cloneFlags &&& clonePid = 0) (hfuel : pidMax ≤ fuel) :
    (a.getPid fuel ps cloneFlags current = none ↔
        a.lastPid < 300 ∧ ∀ n, a.lastPid < n → n < pidMax → Taken ps n) ∧
      ∀ pid a', a.getPid fuel ps cloneFlags current = some (pid, a') →
        (pid = 0 ↔ 300 ≤ a.lastPid ∧
          ∀ n, 300 ≤ n → n < pidMax → n ≠ a.lastPid → Taken ps n) ∧
        (pid ≠ 0 → 0 < pid ∧ pid < pidMax ∧ ¬Taken ps pid ∧ a'.lastPid = pid ∧ a'.Safe ps ∧
          (pid ≤ a.lastPid → ∀ n, a.lastPid < n → n < pidMax → Taken ps n)) := by
  have hmax : pidMax = 0x8000 := rfl
  have hnonneg := h.nonneg
  have hlt : a.lastPid < pidMax := lt_of_lt_of_le h.lt h.le
  rcases getPid_cases current fuel h hflags with ⟨hsafe, hcall⟩ | ⟨b, hb, hstart, hcall⟩
  · -- the number is below `next_safe`
    have hle := h.le
    have hfree := h.free (a.lastPid + 1) (by omega) hsafe
    rw [hcall]
    refine ⟨iff_of_false nofun fun hall => hfree (hall.2 _ (by omega) (by omega)), ?_⟩
    rintro pid a' ⟨⟩
    refine ⟨iff_of_false (by omega) fun hall => hfree ?_, fun _ => ⟨by omega, by omega, hfree, rfl,
      ⟨by dsimp only; omega, hsafe, hle, fun n hn => h.free n (by dsimp only at hn; omega)⟩,
      fun hback => absurd hback (by omega)⟩⟩
    exact hall.2 _ (by omega) (by omega) (by omega)
  have hahead : Ahead a.lastPid b.lastPid := by
    rw [hstart]
    unfold Ahead succPid
    split <;> omega
  rw [hcall]
  constructor
  · constructor
    · -- a number that stops the loop is near enough
      have hreach : ∀ t, t < pidMax → b.lastPid ≤ t ∨ 300 ≤ t → ¬Taken ps t ∨ t = a.lastPid →
          repeatScan ps a.lastPid fuel b ≠ none := by
        intro t ht hcome hstop hnone
        have hsome := repeatScan_isSome (n := fuel) hb hahead ht hcome hstop (by
          have hpos := hb.pos
          have hblt := hb.lt_pidMax
          unfold pidDist
          split <;> omega)
        rw [hnone] at hsome
        cases hsome
      intro hnone
      -- from 300 on the search comes back to `last_pid`, and stops
      have hlow : a.lastPid < 300 := by
        by_contra hge
        exact hreach a.lastPid hlt (.inr (not_lt.mp hge)) (.inr rfl) hnone
      refine ⟨hlow, fun n hn hn' => ?_⟩
      by_contra hfree
      refine hreach n hn' (.inl ?_) (.inl hfree) hnone
      rw [hstart, succPid, if_neg (by omega)]
      omega
    · -- below 300 the search never comes back to where it began
      rintro ⟨hlow, hall⟩
      refine repeatScan_eq_none fuel hb ?_ hlow hall
      rw [hstart, succPid, if_neg (by omega)]
      omega
  · intro pid a' hresult
    cases repeatScan_result hb hahead hlt hresult with
    | found a' hfree hsafe hpos hne hfrom hwrap =>
      have hmax' : a'.lastPid < pidMax := lt_of_lt_of_le hsafe.lt hsafe.le
      refine ⟨iff_of_false (by omega) fun hall => hfree (hall.2 _ ?_ hmax' hne),
        fun _ => ⟨hpos, hmax', hfree, rfl, hsafe, fun hback n hn hn' => ?_⟩⟩
      · have hge := hall.1
        rw [hstart] at hfrom
        unfold succPid at hfrom
        split at hfrom <;> omega
      · have hstart' : b.lastPid = a.lastPid + 1 := by
          rw [hstart, succPid, if_neg (by omega)]
        exact hwrap (by omega) n (by omega) hn'
    | nomorepids _ hge hback hrange hall =>
      refine ⟨iff_of_true rfl ⟨hge, fun n hn hn' hne => ?_⟩, fun h0 => absurd rfl h0⟩
      apply hall n (.inr hn) hn'
      rw [hstart]
      unfold pidDist succPid
      split_ifs <;> omega

/-- The numbers 32767 and 300 are in use. -/
theorem getPid_spec_wrapped :
    let ps : List TaskIds := [⟨0x7fff, 1, 0x7fff, 1⟩, ⟨5, 300, 5, 1⟩]
    getPid 0x8000 ps 0 1 ⟨0x7ffe, 0x7fff⟩ = some (301, ⟨301, 0x7fff⟩) ∧ ¬Taken ps 301 ∧
      Safe ps ⟨301, 0x7fff⟩ := by
  intro ps
  have hsafe : Safe ps ⟨0x7ffe, 0x7fff⟩ :=
    ⟨by decide, by decide, by decide, fun n hn hn' => by dsimp only at hn hn'; omega⟩
  have hcall : getPid 0x8000 ps 0 1 ⟨0x7ffe, 0x7fff⟩ = some (301, ⟨301, 0x7fff⟩) := by
    decide +kernel
  have hflags : (0 : UInt32) &&& clonePid = 0 := rfl
  have hfuel : pidMax ≤ (0x8000 : ℕ) := le_rfl
  obtain ⟨-, -, hfree, -, hsafe', -⟩ :=
    ((getPid_spec hsafe hflags hfuel).2 _ _ hcall).2 (by decide)
  exact ⟨hcall, hfree, hsafe'⟩

end PidAlloc
end ShortSched
