import HackRF.IntervalGrid
import HackRF.SweepService

/-!
# The bands of the bins

The tuner of the device stands 7.5 MHz above the frequency `F` in the header of
a block.  Of the bins of the transform `rx_callback` prints two quarters, with
integer divisions in their first numbers; for an odd multiple of four bins they
begin exactly at `F` and at `F + 10` MHz, 5 MHz each.
-/

namespace HackRF.Sweep

open IntervalGrid

/-- The bins which `rx_callback` reads for a row. -/
def rowBins (size offset : ℕ) : List ℕ :=
  (List.range (size / 4)).map fun i => i + 1 + offset

/-- The centre of a bin, in bin widths from the frequency of the tuner: the
upper half of the bins are the negative frequencies. -/
def binPosition (size bin : ℕ) : ℝ :=
  if bin < size / 2 then bin else (bin : ℝ) - size

noncomputable def binBand (size : ℕ) (tuner : ℝ) (bin : ℕ) : Set ℝ :=
  Set.Ico
    (tuner + (binPosition size bin - 1 / 2) * (defaultSampleRateHz / size))
    (tuner + (binPosition size bin + 1 / 2) * (defaultSampleRateHz / size))

/-- Bins of the transform, neither the one at the tuner nor the one at the
border of the two halves, the bands of which are disjoint and make up an
interval. -/
structure TilesBand (size : ℕ) (tuner : ℝ) (bins : List ℕ)
    (low high : ℝ) : Prop where
  valid : ∀ bin ∈ bins, bin < size
  not_dc : 0 ∉ bins
  not_half : size / 2 ∉ bins
  disjoint : bins.Pairwise fun bin bin' =>
    Disjoint (binBand size tuner bin) (binBand size tuner bin')
  covers : (⋃ bin ∈ bins, binBand size tuner bin) = Set.Ico low high

theorem mem_rowBins {size offset bin : ℕ} :
    bin ∈ rowBins size offset ↔ ∃ i < size / 4, bin = i + 1 + offset := by
  simp [rowBins, eq_comm]

theorem State.powers_eq_rowBins {F : Type*} (settings : Settings F)
    (offset : ℕ) (state : State F) :
    state.powers settings offset =
      (rowBins settings.fftSize.size offset).map state.power := by
  rw [rowBins, List.map_map]
  rfl

/-! ## Bins as cells of a grid -/

section Odd

variable {h : ℕ}

theorem binBand_low (h i : ℕ) (frequency : ℝ) :
    binBand (8 * h + 4) (frequency + offset) (i + 1 + (5 * h + 2)) =
      cell frequency (5000000 / (2 * h + 1)) i := by
  have hhalf : ¬ i + 1 + (5 * h + 2) < (8 * h + 4) / 2 := by omega
  have hwidth : ((2 : ℝ) * h + 1) ≠ 0 := by positivity
  have hsize : ((8 : ℝ) * h + 4) ≠ 0 := by positivity
  unfold binBand binPosition cell
  rw [if_neg hhalf]
  push_cast
  congr 1
  · field_simp
    ring
  · field_simp
    ring

theorem binBand_high (h i : ℕ) (hi : i < 2 * h + 1) (frequency : ℝ) :
    binBand (8 * h + 4) (frequency + offset) (i + 1 + h) =
      cell (frequency + 10000000) (5000000 / (2 * h + 1)) i := by
  have hhalf : i + 1 + h < (8 * h + 4) / 2 := by omega
  have hwidth : ((2 : ℝ) * h + 1) ≠ 0 := by positivity
  have hsize : ((8 : ℝ) * h + 4) ≠ 0 := by positivity
  unfold binBand binPosition cell
  rw [if_pos hhalf]
  push_cast
  congr 1
  · field_simp
    ring
  · field_simp
    ring

/-- Bins whose bands are the first cells of a grid tile what the cells do. -/
theorem tilesBand_of_cells {offset : ℕ} {tuner low : ℝ}
    (hvalid : ∀ i < 2 * h + 1, i + 1 + offset < 8 * h + 4)
    (hhalf : ∀ i < 2 * h + 1, i + 1 + offset ≠ 4 * h + 2)
    (hcell : ∀ i < 2 * h + 1,
      binBand (8 * h + 4) tuner (i + 1 + offset) =
        cell low (5000000 / (2 * h + 1)) i) :
    TilesBand (8 * h + 4) tuner (rowBins (8 * h + 4) offset) low
      (low + 5000000) := by
  have hquarter : (8 * h + 4) / 4 = 2 * h + 1 := by omega
  have hmem : ∀ bin, bin ∈ rowBins (8 * h + 4) offset ↔
      ∃ i < 2 * h + 1, bin = i + 1 + offset := by
    intro bin
    rw [mem_rowBins, hquarter]
  have hwidth : (0 : ℝ) < 5000000 / (2 * h + 1) := by positivity
  constructor
  · intro bin hbin
    obtain ⟨i, hi, rfl⟩ := (hmem bin).mp hbin
    exact hvalid i hi
  · intro hbin
    obtain ⟨i, -, hzero⟩ := (hmem 0).mp hbin
    omega
  · intro hbin
    obtain ⟨i, hi, hmiddle⟩ := (hmem _).mp hbin
    exact hhalf i hi (by omega)
  · rw [rowBins, hquarter, List.pairwise_map]
    have hcells := pairwise_disjoint_of_nodup (a := low) hwidth
      (List.nodup_range (n := 2 * h + 1))
    apply hcells.imp_of_mem
    intro i j hi hj hdisjoint
    rw [hcell i (List.mem_range.mp hi), hcell j (List.mem_range.mp hj)]
    exact hdisjoint
  · have hend : low + ((2 * h + 1 : ℕ) : ℝ) * (5000000 / (2 * h + 1)) =
        low + 5000000 := by
      have hne : ((2 : ℝ) * h + 1) ≠ 0 := by positivity
      push_cast
      field_simp
    ext x
    rw [← hend, ← exists_mem_cell_iff hwidth fun k => List.mem_range]
    simp only [Set.mem_iUnion, List.mem_range, exists_prop]
    constructor
    · rintro ⟨bin, hbin, hx⟩
      obtain ⟨i, hi, rfl⟩ := (hmem bin).mp hbin
      rw [hcell i hi] at hx
      exact ⟨i, hi, hx⟩
    · rintro ⟨i, hi, hx⟩
      rw [← hcell i hi] at hx
      exact ⟨i + 1 + offset, (hmem _).mpr ⟨i, hi, rfl⟩, hx⟩

end Odd

section Bands

variable {size : ℕ} (hodd : size % 8 = 4) (frequency : ℝ)

include hodd

theorem tilesBand_low :
    TilesBand size (frequency + offset) (rowBins size (size * 5 / 8))
      frequency (frequency + 5000000) := by
  obtain ⟨h, rfl⟩ : ∃ h, size = 8 * h + 4 := ⟨size / 8, by omega⟩
  have hlow : (8 * h + 4) * 5 / 8 = 5 * h + 2 := by omega
  rw [hlow]
  apply tilesBand_of_cells (by omega) (by omega)
  intro i _
  exact binBand_low h i frequency

theorem tilesBand_high :
    TilesBand size (frequency + offset) (rowBins size (size / 8))
      (frequency + 10000000) (frequency + 15000000) := by
  obtain ⟨h, rfl⟩ : ∃ h, size = 8 * h + 4 := ⟨size / 8, by omega⟩
  have hhigh : (8 * h + 4) / 8 = h := by omega
  have hend : frequency + 15000000 = frequency + 10000000 + 5000000 := by
    ring
  rw [hhigh, hend]
  apply tilesBand_of_cells (by omega) (by omega)
  intro i hi
  exact binBand_high h i hi frequency

end Bands

/-- The bins printed for a block tile the two bands which the rows name. -/
theorem rowBins_tile {size : ℕ} (hodd : size % 8 = 4) (frequency : ℝ) :
    TilesBand size (frequency + offset) (rowBins size (size * 5 / 8))
        frequency (frequency + 5000000) ∧
      TilesBand size (frequency + offset) (rowBins size (size / 8))
        (frequency + 10000000) (frequency + 15000000) ∧
      (rowBins size (size * 5 / 8)).Disjoint (rowBins size (size / 8)) := by
  refine ⟨tilesBand_low hodd frequency, tilesBand_high hodd frequency, ?_⟩
  intro bin hfirst hsecond
  obtain ⟨i, hi, rfl⟩ := mem_rowBins.mp hfirst
  obtain ⟨j, hj, hsame⟩ := mem_rowBins.mp hsecond
  omega

theorem rowBins_tile_twenty :
    TilesBand 20 (2400000000 + offset) (rowBins 20 12) 2400000000
        (2400000000 + 5000000) ∧
      TilesBand 20 (2400000000 + offset) (rowBins 20 2)
        (2400000000 + 10000000) (2400000000 + 15000000) ∧
      (rowBins 20 12).Disjoint (rowBins 20 2) :=
  rowBins_tile (by decide) 2400000000

end HackRF.Sweep
