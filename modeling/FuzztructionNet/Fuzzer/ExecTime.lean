import FuzztructionNet.Duration

/-!
# The execution-time average

`FuzzingWorker::report_execution_duration` folds the average duration `observed` of `n` new
executions into the worker's running average, weighting the old average by
`AVG_EXECUTION_TIME_STABILIZATION_VALUE`: `avg := (avg * K + observed * n) / (n + K)`, in
`Duration` and `u32` arithmetic, each operation of which panics on overflow.  The constant is
declared in a module that is not among the sources and is a parameter here.

When the update completes it is the floor of the weighted mean of the two averages in
nanoseconds, so it lies between them; a run of updates never leaves an interval that holds the
starting average and every observed one.
-/

namespace FuzztructionNet.ExecTime

open Duration

/-- `u32` addition as a build with overflow checks does it (the default debug profile): `none`
where the sum overflows and `+` panics.  A release build wraps instead. -/
def u32Add (a b : UInt32) : Option UInt32 :=
  if a.toNat + b.toNat < 2 ^ 32 then some (a + b) else none

/-- `FuzzingWorker::report_execution_duration`: the new `avg_execution_duration`, or `none`
where the code panics on an overflow.  `stabilization` is
`AVG_EXECUTION_TIME_STABILIZATION_VALUE`. -/
def reportExecutionDuration (stabilization : UInt32) (avg observed : Duration) (n : UInt32) :
    Option Duration := do
  let weighted ← avg.checkedMul stabilization
  let fresh ← observed.checkedMul n
  let sum ← weighted.checkedAdd fresh
  let count ← u32Add n stabilization
  sum.checkedDiv count

def reportRun (stabilization : UInt32) (avg : Duration) : List (Duration × UInt32) → Option Duration
  | [] => some avg
  | (observed, n) :: rs =>
    (reportExecutionDuration stabilization avg observed n).bind fun a => reportRun stabilization a rs

theorem u32Add_toNat {a b c : UInt32} (h : u32Add a b = some c) : c.toNat = a.toNat + b.toNat := by
  simp only [u32Add] at h
  split at h
  · rename_i hlt
    cases h
    show (a.toBitVec + b.toBitVec).toNat = _
    rw [BitVec.toNat_add]
    exact Nat.mod_eq_of_lt hlt
  · cases h

theorem u32Add_isSome (a b : UInt32) : (u32Add a b).isSome ↔ a.toNat + b.toNat < 2 ^ 32 := by
  unfold u32Add
  split <;> next h => simpa using h

theorem weighted_mean_mem {x y k m : ℕ} (hpos : 0 < m + k) :
    min x y ≤ (x * k + y * m) / (m + k) ∧ (x * k + y * m) / (m + k) ≤ max x y := by
  rcases le_total x y with hxy | hyx
  · have h1 := Nat.mul_le_mul_right m hxy
    have h2 := Nat.mul_le_mul_right k hxy
    refine ⟨(min_le_left x y).trans ((Nat.le_div_iff_mul_le hpos).mpr ?_),
      (Nat.div_le_of_le_mul ?_).trans (le_max_right x y)⟩
    · rw [Nat.mul_add]; omega
    · rw [Nat.add_mul, Nat.mul_comm m y, Nat.mul_comm k y]; omega
  · have h1 := Nat.mul_le_mul_right m hyx
    have h2 := Nat.mul_le_mul_right k hyx
    refine ⟨(min_le_right x y).trans ((Nat.le_div_iff_mul_le hpos).mpr ?_),
      (Nat.div_le_of_le_mul ?_).trans (le_max_left x y)⟩
    · rw [Nat.mul_add]; omega
    · rw [Nat.add_mul, Nat.mul_comm m x, Nat.mul_comm k x]; omega

section Report

variable {K n : UInt32} {a o a' : Duration}

/-- A report that completes sets the average to `⌊(a·K + o·n) / (n + K)⌋` nanoseconds, and
`n + K` is not zero. -/
theorem reportExecutionDuration_toNanos (h : reportExecutionDuration K a o n = some a') :
    a'.toNanos = (a.toNanos * K.toNat + o.toNanos * n.toNat) / (n.toNat + K.toNat) ∧
      0 < n.toNat + K.toNat := by
  simp only [reportExecutionDuration, Option.bind_eq_bind, Option.bind_eq_some] at h
  obtain ⟨w, hw, f, hf, s, hs, c, hc, hd⟩ := h
  rw [← u32Add_toNat hc]
  refine ⟨by rw [checkedDiv_toNanos hd, checkedAdd_toNanos hs, checkedMul_toNanos hw,
    checkedMul_toNanos hf], Nat.pos_of_ne_zero fun hc0 => ?_⟩
  simp [checkedDiv, hc0] at hd

theorem reportExecutionDuration_mem (h : reportExecutionDuration K a o n = some a') :
    min a.toNanos o.toNanos ≤ a'.toNanos ∧ a'.toNanos ≤ max a.toNanos o.toNanos := by
  obtain ⟨hval, hpos⟩ := reportExecutionDuration_toNanos h
  rw [hval]
  exact weighted_mean_mem hpos

theorem reportExecutionDuration_zero (h : reportExecutionDuration K a o 0 = some a') : a' = a := by
  obtain ⟨hval, hpos⟩ := reportExecutionDuration_toNanos h
  refine ext_toNanos ?_
  simp only [UInt32.toNat_zero, Nat.mul_zero, Nat.add_zero, Nat.zero_add] at hval hpos
  rw [hval, Nat.mul_div_cancel _ hpos]

/-- **A run of reports stays in any interval that holds the starting average and every observed
average.** -/
theorem reportRun_mem {lo hi : ℕ} :
    ∀ {a : Duration} {rs : List (Duration × UInt32)} {a' : Duration},
      reportRun K a rs = some a' → lo ≤ a.toNanos → a.toNanos ≤ hi →
      (∀ p ∈ rs, lo ≤ p.1.toNanos ∧ p.1.toNanos ≤ hi) → lo ≤ a'.toNanos ∧ a'.toNanos ≤ hi
  | _, [], _, h, hlo, hhi, _ => by cases h; exact ⟨hlo, hhi⟩
  | a, (o, n) :: rs, a', h, hlo, hhi, hobs => by
    simp only [reportRun, Option.bind_eq_some] at h
    obtain ⟨a₁, h₁, hrest⟩ := h
    obtain ⟨hmin, hmax⟩ := reportExecutionDuration_mem h₁
    obtain ⟨hlo', hhi'⟩ := hobs (o, n) (List.mem_cons_self _ _)
    exact reportRun_mem hrest (le_trans (le_min hlo hlo') hmin) (hmax.trans (max_le hhi hhi'))
      fun p hp => hobs p (List.mem_cons_of_mem _ hp)

/-- A report completes where neither the weighted sum `avg·K + observed·n` overflows a
`Duration` nor `n + K` a `u32`, and `n + K` is not zero.  The products alone cannot overflow
where the sum does not. -/
theorem reportExecutionDuration_of_fits {K n : UInt32} {a o : Duration}
    (hsum : a.toNanos * K.toNat + o.toNanos * n.toNat < 2 ^ 64 * NANOS_PER_SEC)
    (hpos : 0 < n.toNat + K.toNat) (hcnt : n.toNat + K.toNat < 2 ^ 32) :
    (reportExecutionDuration K a o n).isSome := by
  obtain ⟨w, hw⟩ := Option.isSome_iff_exists.1
    ((checkedMul_isSome a K).2 (lt_of_le_of_lt (Nat.le_add_right _ _) hsum))
  obtain ⟨f, hf⟩ := Option.isSome_iff_exists.1
    ((checkedMul_isSome o n).2 (lt_of_le_of_lt (Nat.le_add_left _ _) hsum))
  obtain ⟨s, hs⟩ := Option.isSome_iff_exists.1 ((checkedAdd_isSome w f).2
    (by rwa [checkedMul_toNanos hw, checkedMul_toNanos hf]))
  obtain ⟨c, hc⟩ := Option.isSome_iff_exists.1 ((u32Add_isSome n K).2 hcnt)
  have hdiv := (checkedDiv_isSome s c).2 (by rw [u32Add_toNat hc]; omega)
  simpa [reportExecutionDuration, hw, hf, hs, hc] using hdiv

/-- **When `report_execution_duration` panics**: exactly when the weighted sum
`avg·K + observed·n` overflows a `Duration`, or `n + K` overflows a `u32` or is zero. -/
theorem reportExecutionDuration_isSome (K : UInt32) (a o : Duration) (n : UInt32) :
    (reportExecutionDuration K a o n).isSome ↔
      a.toNanos * K.toNat + o.toNanos * n.toNat < 2 ^ 64 * NANOS_PER_SEC ∧
        0 < n.toNat + K.toNat ∧ n.toNat + K.toNat < 2 ^ 32 := by
  refine ⟨fun h => ?_, fun ⟨hsum, hpos, hcnt⟩ => reportExecutionDuration_of_fits hsum hpos hcnt⟩
  obtain ⟨d, hd⟩ := Option.isSome_iff_exists.1 h
  simp only [reportExecutionDuration, Option.bind_eq_bind, Option.bind_eq_some] at hd
  obtain ⟨w, hw, f, hf, s, hs, c, hc, hdiv⟩ := hd
  have hsum := (checkedAdd_isSome w f).1 (by simp [hs])
  have hc0 := (checkedDiv_isSome s c).1 (by simp [hdiv])
  rw [checkedMul_toNanos hw, checkedMul_toNanos hf] at hsum
  rw [u32Add_toNat hc] at hc0
  exact ⟨hsum, Nat.pos_of_ne_zero hc0, (u32Add_isSome n K).1 (by simp [hc])⟩

/-- **A run of reports whose averages stay at most `hi` never panics**: if the starting
average and every observed one are at most `hi` nanoseconds, and for every report `hi·(n + K)`
nanoseconds fit a `Duration` and `n + K` is a nonzero `u32`, every report completes and the
average stays at most `hi`. -/
theorem reportRun_isSome {hi : ℕ} :
    ∀ {a : Duration} {rs : List (Duration × UInt32)}, a.toNanos ≤ hi →
      (∀ p ∈ rs, p.1.toNanos ≤ hi ∧ hi * (p.2.toNat + K.toNat) < 2 ^ 64 * NANOS_PER_SEC ∧
        0 < p.2.toNat + K.toNat ∧ p.2.toNat + K.toNat < 2 ^ 32) →
      ∃ a', reportRun K a rs = some a' ∧ a'.toNanos ≤ hi
  | a, [], ha, _ => ⟨a, rfl, ha⟩
  | a, (o, n) :: rs, ha, hrs => by
    obtain ⟨ho, hfit, hpos, hcnt⟩ := hrs (o, n) (List.mem_cons_self _ _)
    have hsum : a.toNanos * K.toNat + o.toNanos * n.toNat < 2 ^ 64 * NANOS_PER_SEC :=
      calc a.toNanos * K.toNat + o.toNanos * n.toNat ≤ hi * K.toNat + hi * n.toNat :=
            Nat.add_le_add (Nat.mul_le_mul_right _ ha) (Nat.mul_le_mul_right _ ho)
        _ = hi * (n.toNat + K.toNat) := by ring
        _ < _ := hfit
    obtain ⟨a₁, h₁⟩ := Option.isSome_iff_exists.1 (reportExecutionDuration_of_fits hsum hpos hcnt)
    have ha₁ : a₁.toNanos ≤ hi := (reportExecutionDuration_mem h₁).2.trans (max_le ha ho)
    obtain ⟨a', h', ha'⟩ := reportRun_isSome ha₁ fun p hp => hrs p (List.mem_cons_of_mem _ hp)
    exact ⟨a', by simp [reportRun, h₁, h'], ha'⟩

theorem twoSeconds_reportRun_isSome :
    (Duration.fromMillis 2000 (by decide)).toNanos ≤ 2000000000 ∧
      (∀ p ∈ [(Duration.fromMillis 2000 (by decide), (10 : UInt32))],
        p.1.toNanos ≤ 2000000000 ∧
          2000000000 * (p.2.toNat + (4 : UInt32).toNat) < 2 ^ 64 * NANOS_PER_SEC ∧
          0 < p.2.toNat + (4 : UInt32).toNat ∧ p.2.toNat + (4 : UInt32).toNat < 2 ^ 32) ∧
      ∃ a', reportRun 4 (Duration.fromMillis 2000 (by decide))
          [(Duration.fromMillis 2000 (by decide), 10)] = some a' ∧ a'.toNanos ≤ 2000000000 :=
  have ha : (Duration.fromMillis 2000 (by decide)).toNanos ≤ 2000000000 := by decide
  have hrs : ∀ p ∈ [(Duration.fromMillis 2000 (by decide), (10 : UInt32))],
      p.1.toNanos ≤ 2000000000 ∧
        2000000000 * (p.2.toNat + (4 : UInt32).toNat) < 2 ^ 64 * NANOS_PER_SEC ∧
        0 < p.2.toNat + (4 : UInt32).toNat ∧ p.2.toNat + (4 : UInt32).toNat < 2 ^ 32 := by
    decide
  ⟨ha, hrs, reportRun_isSome ha hrs⟩

end Report

/-- What `report_execution_duration` does to the average, for every value of the stabilisation
constant: a report completes where no `Duration` or `u32` operation overflows; a completed
report is the floor of the weighted mean in nanoseconds, lies between the old and the observed
average, and keeps the old one when `n = 0`; a run of completed reports stays in any interval
holding the start and every observed average. -/
theorem reportExecutionDuration_convex (K : UInt32) :
    (∀ a o n, a.toNanos * K.toNat + o.toNanos * n.toNat < 2 ^ 64 * NANOS_PER_SEC →
      0 < n.toNat + K.toNat → n.toNat + K.toNat < 2 ^ 32 →
      ∃ a', reportExecutionDuration K a o n = some a') ∧
    (∀ a o n a', reportExecutionDuration K a o n = some a' →
      a'.toNanos = (a.toNanos * K.toNat + o.toNanos * n.toNat) / (n.toNat + K.toNat) ∧
        min a.toNanos o.toNanos ≤ a'.toNanos ∧ a'.toNanos ≤ max a.toNanos o.toNanos ∧
        (n = 0 → a' = a)) ∧
    ∀ a rs a' lo hi, reportRun K a rs = some a' → lo ≤ a.toNanos → a.toNanos ≤ hi →
      (∀ p ∈ rs, lo ≤ p.1.toNanos ∧ p.1.toNanos ≤ hi) → lo ≤ a'.toNanos ∧ a'.toNanos ≤ hi :=
  ⟨fun _ _ _ hsum hpos hcnt => Option.isSome_iff_exists.1
      (reportExecutionDuration_of_fits hsum hpos hcnt),
    fun _ _ _ _ h => ⟨(reportExecutionDuration_toNanos h).1, (reportExecutionDuration_mem h).1,
      (reportExecutionDuration_mem h).2, fun hn => by subst hn; exact reportExecutionDuration_zero h⟩,
    fun _ _ _ _ _ h => reportRun_mem h⟩

end FuzztructionNet.ExecTime
