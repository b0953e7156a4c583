import Mathlib.Tactic

/-!
# Runs that tile a buffer

A buffer of `m * n` elements consists of `n` cells of `m` elements.  Runs of
`m` elements which start at the first elements of the cells, each cell once
and in any order, hit every element of the buffer exactly once.  A rotation
moves every cell to another one.
-/

namespace RunTiling

def run (m start : ℕ) : List ℕ := (List.range m).map (start + ·)

theorem flatMap_run_cells (m n : ℕ) :
    ((List.range n).flatMap fun cell => run m (m * cell)) =
      List.range (m * n) := by
  induction n with
  | zero => rfl
  | succ n ih =>
      rw [List.range_succ, List.flatMap_append, ih, List.flatMap_singleton,
        Nat.mul_succ, List.range_add]
      rfl

theorem flatMap_run_perm {m n : ℕ} {starts : List ℕ}
    (hstarts : starts.Perm ((List.range n).map (m * ·))) :
    (starts.flatMap (run m)).Perm (List.range (m * n)) := by
  rw [← flatMap_run_cells m n]
  have hruns := hstarts.flatMap_right (run m)
  rwa [List.flatMap_map] at hruns

/-- Cells rotated by any distance are the same cells. -/
theorem map_rotate_perm (n distance : ℕ) :
    ((List.range n).map fun cell => (cell + distance) % n).Perm
      (List.range n) := by
  have hnodup : ((List.range n).map fun cell => (cell + distance) % n).Nodup := by
    refine List.Nodup.map_on ?_ List.nodup_range
    intro first hfirst second hsecond hsame
    have hmod : first ≡ second [MOD n] :=
      Nat.ModEq.add_right_cancel' distance hsame
    exact hmod.eq_of_lt_of_lt (List.mem_range.mp hfirst)
      (List.mem_range.mp hsecond)
  have hsubset : ((List.range n).map fun cell => (cell + distance) % n) ⊆
      List.range n := by
    intro cell hcell
    obtain ⟨before, hbefore, rfl⟩ := List.mem_map.mp hcell
    have hpos := Nat.zero_lt_of_lt (List.mem_range.mp hbefore)
    exact List.mem_range.mpr (Nat.mod_lt _ hpos)
  exact (hnodup.subperm hsubset).perm_of_length_le (by simp)

end RunTiling
