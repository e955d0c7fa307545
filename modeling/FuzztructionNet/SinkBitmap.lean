import Mathlib.Data.Fintype.Basic

/-!
# Coverage bitmaps and the virgin-map test

A `sink_bitmap::Bitmap` is a fixed-size byte map of edge counters.  A *virgin* map keeps a bit
set for every hit that has not been seen yet.  `has_new_bit` compares a coverage map with a
virgin map, clears from the virgin map every bit the coverage map has, and reports whether it
found anything new.  The `sink_bitmap` module is not among the sources, so `hasNewBit` follows
the specification (§4.1); everything the fuzzer builds on it is translated from the code.
-/

namespace FuzztructionNet

abbrev Byte := BitVec 8

def Bitmap (n : ℕ) := Fin n → Byte

instance {n : ℕ} : DecidableEq (Bitmap n) := inferInstanceAs (DecidableEq (Fin n → Byte))

inductive BitmapStatus
  | noNew
  | newHit
  | newEdge
  deriving DecidableEq, Repr

namespace Bitmap

variable {n : ℕ}

def newInMem (n : ℕ) (v : Byte) : Bitmap n := fun _ => v

def clear (cov virgin : Bitmap n) : Bitmap n := fun i => virgin i &&& ~~~cov i

/-- Modelled from the spec: `Bitmap::has_new_bit` (§4.1).  Every bit of `cov` is cleared from
`virgin`; the answer is `newEdge` when some byte of `virgin` leaves `0xff`, otherwise `newHit`
when some bit was cleared, otherwise `noNew`. -/
def hasNewBit (cov virgin : Bitmap n) : BitmapStatus × Bitmap n :=
  let virgin' := clear cov virgin
  (if ∃ i, virgin i = 0xff ∧ virgin' i ≠ 0xff then .newEdge
    else if ∃ i, virgin' i ≠ virgin i then .newHit
    else .noNew,
   virgin')

/-- Every bit set in `g` is also set in `l`. -/
def Covers (l g : Bitmap n) : Prop := ∀ i, g i &&& l i = g i

instance (l g : Bitmap n) : Decidable (Covers l g) := inferInstanceAs (Decidable (∀ _, _))

def cleared (cov virgin : Bitmap n) : Bitmap n := fun i => virgin i &&& cov i

def Disjoint (a b : Bitmap n) : Prop := ∀ i, a i &&& b i = 0

@[simp] theorem hasNewBit_snd (cov virgin : Bitmap n) :
    (hasNewBit cov virgin).2 = clear cov virgin := rfl

theorem hasNewBit_fst_eq_noNew {cov virgin : Bitmap n} :
    (hasNewBit cov virgin).1 = .noNew ↔ clear cov virgin = virgin := by
  simp only [hasNewBit]
  split_ifs with hedge hhit
  · obtain ⟨i, hi, hi'⟩ := hedge
    simp only [reduceCtorEq, false_iff]
    exact fun h => hi' (by rw [h]; exact hi)
  · obtain ⟨i, hi⟩ := hhit
    simp only [reduceCtorEq, false_iff]
    exact fun h => hi (congrFun h i)
  · push_neg at hhit
    exact iff_of_true rfl (funext hhit)

theorem Covers.refl (g : Bitmap n) : Covers g g := fun _ => BitVec.and_self

theorem Covers.trans {l m g : Bitmap n} (hlm : Covers l m) (hmg : Covers m g) : Covers l g :=
  fun i =>
    calc g i &&& l i = g i &&& m i &&& l i := by rw [hmg i]
      _ = g i &&& m i := by rw [BitVec.and_assoc, hlm i]
      _ = g i := hmg i

theorem covers_clear (cov virgin : Bitmap n) : Covers virgin (clear cov virgin) := fun _ => by
  simp only [clear]
  rw [BitVec.and_assoc, BitVec.and_comm (~~~_), ← BitVec.and_assoc, BitVec.and_self]

theorem covers_newInMem_ff (g : Bitmap n) : Covers (newInMem n 0xff) g := fun _ =>
  show _ &&& (0xff : Byte) = _ from (show (0xff : Byte) = BitVec.allOnes 8 by decide) ▸
    BitVec.and_allOnes

/-- If a test finds nothing new against `l`, it finds nothing new against any map that `l`
covers. -/
theorem clear_eq_of_covers {cov l g : Bitmap n} (hlg : Covers l g) (hl : clear cov l = l) :
    clear cov g = g := funext fun i =>
  calc g i &&& ~~~cov i = g i &&& l i &&& ~~~cov i := by rw [hlg i]
    _ = g i &&& l i := by rw [BitVec.and_assoc]; exact congrArg (g i &&& ·) (congrFun hl i)
    _ = g i := hlg i

theorem hasNewBit_of_covers {cov l g : Bitmap n} (hlg : Covers l g)
    (hl : (hasNewBit cov l).1 = .noNew) : hasNewBit cov g = (.noNew, g) := by
  have hg := clear_eq_of_covers hlg (hasNewBit_fst_eq_noNew.mp hl)
  exact Prod.ext (hasNewBit_fst_eq_noNew.mpr hg) hg

/-- The bits one test clears are never cleared by a later test: the later virgin map is
covered by what the first test left. -/
theorem disjoint_cleared {cov cov₂ g g₂ : Bitmap n} (h : Covers (clear cov g) g₂) :
    Disjoint (cleared cov g) (cleared cov₂ g₂) := fun i => by
  have hi : g₂ i &&& (g i &&& ~~~cov i) = g₂ i := h i
  calc cleared cov g i &&& cleared cov₂ g₂ i
      = g i &&& cov i &&& (g₂ i &&& (g i &&& ~~~cov i) &&& cov₂ i) := by rw [hi]; rfl
    _ = 0 := by
      ext j
      simp only [BitVec.getLsbD_and, BitVec.getLsbD_not, BitVec.getLsbD_zero]
      cases (cov i).getLsbD j <;> simp

end Bitmap

end FuzztructionNet
