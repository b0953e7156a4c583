import Mathlib

/-!
# Grids of half-open intervals

The cells `[a + k * w, a + (k + 1) * w)` of a grid with origin `a` and width
`w`.  Different cells are disjoint, every point from the origin on lies in the
cell its distance names, and the first `n` cells make up one interval.
-/

namespace IntervalGrid

variable {K : Type*} [Field K] [LinearOrder K] [IsStrictOrderedRing K]

def cell (a w : K) (k : ℕ) : Set K :=
  Set.Ico (a + k * w) (a + (k + 1) * w)

variable {a w x : K} {k l n : ℕ}

theorem cell_disjoint_of_lt (hw : 0 < w) (hlt : k < l) :
    Disjoint (cell a w k) (cell a w l) := by
  rw [Set.disjoint_left]
  rintro x ⟨-, hright⟩ ⟨hleft, -⟩
  have hstep : (k : K) + 1 ≤ l := by exact_mod_cast hlt
  have hmul : ((k : K) + 1) * w ≤ l * w := by gcongr
  linarith

theorem cell_disjoint (hw : 0 < w) (hne : k ≠ l) :
    Disjoint (cell a w k) (cell a w l) := by
  rcases lt_or_gt_of_ne hne with hlt | hlt
  · exact cell_disjoint_of_lt hw hlt
  · exact (cell_disjoint_of_lt hw hlt).symm

theorem pairwise_disjoint_of_nodup (hw : 0 < w) {cells : List ℕ}
    (hnodup : cells.Nodup) :
    cells.Pairwise fun k l => Disjoint (cell a w k) (cell a w l) :=
  hnodup.imp fun hne => cell_disjoint hw hne

theorem cell_subset (hw : 0 < w) (hlt : k < n) :
    cell a w k ⊆ Set.Ico a (a + n * w) := by
  rintro x ⟨hleft, hright⟩
  have hstep : (k : K) + 1 ≤ n := by exact_mod_cast hlt
  have hmul : ((k : K) + 1) * w ≤ n * w := by gcongr
  have hzero : 0 ≤ (k : K) * w := by positivity
  exact ⟨by linarith, by linarith⟩

variable [FloorSemiring K]

theorem exists_mem_cell (hw : 0 < w) (hx : a ≤ x) : ∃ k, x ∈ cell a w k := by
  have hdist : 0 ≤ (x - a) / w := div_nonneg (by linarith) hw.le
  refine ⟨⌊(x - a) / w⌋₊, ?_, ?_⟩
  · have hfloor := Nat.floor_le hdist
    rw [le_div_iff₀ hw] at hfloor
    linarith
  · have hceil := Nat.lt_floor_add_one ((x - a) / w)
    rw [div_lt_iff₀ hw] at hceil
    linarith

theorem lt_of_mem_cell (hw : 0 < w) (hx : x ∈ cell a w k)
    (hend : x < a + n * w) : k < n := by
  have hmul : (k : K) * w < n * w := by linarith [hx.1]
  exact_mod_cast lt_of_mul_lt_mul_right hmul hw.le

/-- Cells which are exactly the first `n` cover exactly one interval. -/
theorem exists_mem_cell_iff (hw : 0 < w) {cells : List ℕ}
    (hcells : ∀ k, k ∈ cells ↔ k < n) :
    (∃ k ∈ cells, x ∈ cell a w k) ↔ x ∈ Set.Ico a (a + n * w) := by
  constructor
  · rintro ⟨k, hk, hx⟩
    exact cell_subset hw ((hcells k).mp hk) hx
  · rintro ⟨hstart, hend⟩
    obtain ⟨k, hk⟩ := exists_mem_cell hw hstart
    exact ⟨k, (hcells k).mpr (lt_of_mem_cell hw hk hend), hk⟩

end IntervalGrid
