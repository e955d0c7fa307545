import Mathlib.Tactic.Ring
import Mathlib.Data.Nat.Defs

/-!
# `std::time::Duration`

A duration is a number of whole seconds that fits a `u64` and a number of nanoseconds below one
second.  The arithmetic the fuzzer uses is that of the standard library: multiplication and
division by a `u32` and addition, each of which panics where its `checked_` form returns
`None`.  `checkedDiv` is the current library's, which divides the remainder of the seconds
together with the nanoseconds.  Each operation gets one lemma saying what it does to the total
number of nanoseconds.
-/

namespace FuzztructionNet

def NANOS_PER_SEC : ℕ := 1000000000

structure Duration where
  /-- Whole seconds, a `u64`. -/
  secs : ℕ
  /-- Nanoseconds, below one second. -/
  nanos : ℕ
  secs_lt : secs < 2 ^ 64
  nanos_lt : nanos < NANOS_PER_SEC
  deriving DecidableEq

namespace Duration

def toNanos (d : Duration) : ℕ := d.secs * NANOS_PER_SEC + d.nanos

def fromMillis (millis : ℕ) (h : millis < 2 ^ 64) : Duration :=
  ⟨millis / 1000, millis % 1000 * 1000000,
    lt_of_le_of_lt (Nat.div_le_self _ _) h,
    by have := Nat.mod_lt millis (show 1000 > 0 by decide); simp only [NANOS_PER_SEC]; omega⟩

def fromSecs (secs : ℕ) (h : secs < 2 ^ 64) : Duration := ⟨secs, 0, h, by decide⟩

def checkedMul (d : Duration) (rhs : UInt32) : Option Duration :=
  let totalNanos := d.nanos * rhs.toNat
  let extraSecs := totalNanos / NANOS_PER_SEC
  let nanos := totalNanos % NANOS_PER_SEC
  if h : d.secs * rhs.toNat + extraSecs < 2 ^ 64 then
    some ⟨d.secs * rhs.toNat + extraSecs, nanos, h, Nat.mod_lt _ (by decide)⟩
  else none

def checkedAdd (d e : Duration) : Option Duration :=
  if hn : d.nanos + e.nanos < NANOS_PER_SEC then
    if h : d.secs + e.secs < 2 ^ 64 then some ⟨d.secs + e.secs, d.nanos + e.nanos, h, hn⟩
    else none
  else
    if h : d.secs + e.secs + 1 < 2 ^ 64 then
      some ⟨d.secs + e.secs + 1, d.nanos + e.nanos - NANOS_PER_SEC, h,
        by have := d.nanos_lt; have := e.nanos_lt; omega⟩
    else none

/-- The nanosecond part of `checked_div`: the quotient of the nanoseconds, and of what the
seconds leave over, by `rhs`.  It is below one second. -/
theorem checkedDiv_nanos_lt (d : Duration) {r : ℕ} (hr : 0 < r) :
    d.nanos / r + (d.secs % r * NANOS_PER_SEC + d.nanos % r) / r < NANOS_PER_SEC := by
  have hsum : d.nanos / r * r + (d.secs % r * NANOS_PER_SEC + d.nanos % r) <
      NANOS_PER_SEC * r := by
    have h1 := Nat.div_add_mod' d.nanos r
    have h2 : d.secs % r + 1 ≤ r := Nat.mod_lt _ hr
    have h3 := d.nanos_lt
    simp only [NANOS_PER_SEC] at h3 ⊢
    omega
  have h := Nat.div_lt_of_lt_mul (Nat.mul_comm NANOS_PER_SEC r ▸ hsum)
  rw [Nat.add_comm, Nat.add_mul_div_right _ _ hr] at h
  omega

def checkedDiv (d : Duration) (rhs : UInt32) : Option Duration :=
  if hr : rhs.toNat ≠ 0 then
    some ⟨d.secs / rhs.toNat,
      d.nanos / rhs.toNat + (d.secs % rhs.toNat * NANOS_PER_SEC + d.nanos % rhs.toNat) / rhs.toNat,
      lt_of_le_of_lt (Nat.div_le_self _ _) d.secs_lt,
      d.checkedDiv_nanos_lt (Nat.pos_of_ne_zero hr)⟩
  else none

theorem ext_toNanos {d e : Duration} (h : d.toNanos = e.toNanos) : d = e := by
  obtain ⟨s, n, hs, hn⟩ := d
  obtain ⟨s', n', hs', hn'⟩ := e
  simp only [toNanos, NANOS_PER_SEC] at h hn hn'
  have : s = s' := by omega
  subst this
  have : n = n' := by omega
  subst this
  rfl

theorem checkedMul_toNanos {d d' : Duration} {rhs : UInt32} (h : d.checkedMul rhs = some d') :
    d'.toNanos = d.toNanos * rhs.toNat := by
  simp only [checkedMul] at h
  split at h
  · cases h
    have hx := Nat.div_add_mod' (d.nanos * rhs.toNat) NANOS_PER_SEC
    simp only [toNanos]
    rw [Nat.add_mul, Nat.add_assoc, hx]
    ring
  · cases h

theorem checkedAdd_toNanos {d e d' : Duration} (h : d.checkedAdd e = some d') :
    d'.toNanos = d.toNanos + e.toNanos := by
  simp only [checkedAdd] at h
  split at h
  · split at h <;> cases h
    simp only [toNanos]
    ring
  · split at h <;> cases h
    rename_i hn _
    simp only [toNanos, NANOS_PER_SEC] at hn ⊢
    omega

theorem checkedDiv_toNanos {d d' : Duration} {rhs : UInt32} (h : d.checkedDiv rhs = some d') :
    d'.toNanos = d.toNanos / rhs.toNat := by
  simp only [checkedDiv] at h
  split at h
  · rename_i hr
    cases h
    have hr' : 0 < rhs.toNat := Nat.pos_of_ne_zero hr
    simp only [toNanos]
    -- `secs = q * r + s'` and `nanos = p * r + n'`
    set r := rhs.toNat
    have hs := Nat.div_add_mod d.secs r
    have hn := Nat.div_add_mod d.nanos r
    have key : d.secs * NANOS_PER_SEC + d.nanos =
        (d.secs / r * NANOS_PER_SEC + d.nanos / r) * r +
          (d.secs % r * NANOS_PER_SEC + d.nanos % r) := by
      calc d.secs * NANOS_PER_SEC + d.nanos
          = (r * (d.secs / r) + d.secs % r) * NANOS_PER_SEC + (r * (d.nanos / r) + d.nanos % r) :=
            by rw [hs, hn]
        _ = _ := by ring
    rw [key, Nat.add_comm _ (d.secs % r * NANOS_PER_SEC + d.nanos % r), Nat.add_mul_div_right _ _ hr']
    ring
  · cases h

/-- `checked_mul` succeeds exactly when the product, in nanoseconds, fits a `Duration`. -/
theorem checkedMul_isSome (d : Duration) (r : UInt32) :
    (d.checkedMul r).isSome ↔ d.toNanos * r.toNat < 2 ^ 64 * NANOS_PER_SEC := by
  have key : d.toNanos * r.toNat / NANOS_PER_SEC =
      d.secs * r.toNat + d.nanos * r.toNat / NANOS_PER_SEC := by
    rw [toNanos, Nat.add_mul, Nat.mul_right_comm, Nat.add_comm,
      Nat.add_mul_div_right _ _ (by decide), Nat.add_comm]
  rw [← Nat.div_lt_iff_lt_mul (by decide), key]
  dsimp only [checkedMul]
  split <;> next h => simpa using h

theorem checkedAdd_isSome (d e : Duration) :
    (d.checkedAdd e).isSome ↔ d.toNanos + e.toNanos < 2 ^ 64 * NANOS_PER_SEC := by
  have hd := d.nanos_lt
  have he := e.nanos_lt
  unfold checkedAdd toNanos
  simp only [NANOS_PER_SEC] at *
  split_ifs <;> simp <;> omega

theorem checkedDiv_isSome (d : Duration) (r : UInt32) :
    (d.checkedDiv r).isSome ↔ r.toNat ≠ 0 := by
  unfold checkedDiv
  split <;> simp_all

end Duration

end FuzztructionNet
