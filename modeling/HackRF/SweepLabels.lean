import HackRF.SweepCoverage
import HackRF.SweepReader

/-!
# The names of the columns of a sweep file

The text mode prints the rows of a step at `F`, `F + 10`, `F + 5` and
`F + 15` MHz.  The reader flattens them in this order, and names the columns
by frequencies which increase evenly.  The first value of the second row is
measured 10 MHz above the start of the range and named as at most 7.5 MHz
above it.
-/

namespace HackRF.Sweep

open FloatRounding RowGroups SweepReader

variable {Stamp V : Type*}

/-- A complete sweep in a file: the level of each bin of each 5 MHz cell which
the sweep prints. -/
structure RecordedSweep (Stamp V : Type*) where
  stamp : Stamp
  level : ℕ → ℕ → V

/-- The rows of the sweep, in the order in which its blocks print them. -/
def RecordedSweep.rows (range : SweepRange) (fftSize : FftSize)
    (sweep : RecordedSweep Stamp V) : List (SweepRow Stamp V) :=
  range.rowCells.map fun cell => {
    stamp := sweep.stamp
    hzLow := (range.cellRow cell).1.toNat
    hzHigh := (range.cellRow cell).2.toNat
    values := (List.range fftSize.quarter).map (sweep.level cell) }

def sweepFile (range : SweepRange) (fftSize : FftSize)
    (sweeps : List (RecordedSweep Stamp V)) : List (SweepRow Stamp V) :=
  sweeps.flatMap (RecordedSweep.rows range fftSize)

/-- The integer part of the lower edge of a bin. -/
def binName (fftSize : FftSize) (hzLow i : ℕ) : ℤ :=
  ⌊(hzLow + i * (defaultSampleRateHz / fftSize.size) : ℚ)⌋

/-- The sweep with each level paired with the name of its own bin. -/
def RecordedSweep.named (range : SweepRange) (fftSize : FftSize)
    (sweep : RecordedSweep Stamp V) : RecordedSweep Stamp (V × ℤ) where
  stamp := sweep.stamp
  level := fun cell i =>
    (sweep.level cell i, binName fftSize (range.cellRow cell).1.toNat i)

def namedFile (range : SweepRange) (fftSize : FftSize)
    (sweeps : List (RecordedSweep Stamp V)) :
    List (SweepRow Stamp (V × ℤ)) :=
  sweepFile range fftSize
    (sweeps.map (RecordedSweep.named range fftSize))

/-- Each value stands in the column of its own name. -/
def NamesBins (table : SweepTable Stamp (V × ℤ)) : Prop :=
  ∀ row ∈ table.rows, row.2.map Prod.snd = table.columns

/-! ## The rows of a sweep -/

namespace SweepRange

variable (range : SweepRange)

theorem rowCells_eq : ∃ rest, range.rowCells = 0 :: 2 :: rest := by
  have hbounds := range.stepCount_bounds
  have hpos := range.stepCount_pos
  have hmax := range.hi_le
  have hfirst : range.lo.toNat + 5 * 0 ≤ freqMaxMhz := by omega
  obtain ⟨steps, hsteps⟩ : ∃ steps, range.stepCount = steps + 1 :=
    ⟨range.stepCount - 1, by omega⟩
  obtain ⟨rest, hrest⟩ : ∃ rest, range.tuningCells = 0 :: rest := by
    rw [tuningCells, hsteps, List.range_succ_eq_map, List.flatMap_cons]
    exact ⟨_, rfl⟩
  rw [rowCells, hrest, List.filter_cons_of_pos (by simpa using hfirst),
    List.flatMap_cons]
  exact ⟨_, rfl⟩

/-- At most one cell below a printed one is not printed. -/
theorem le_length_rowCells {k : ℕ} (hk : k ∈ range.rowCells) :
    k ≤ range.rowCells.length := by
  obtain ⟨c, hc, hband, hkc⟩ := range.mem_rowCells.mp hk
  have hlt := range.lt_of_mem_rowCells hk
  have hsubset : (List.range (k + 1)).erase (k - 1) ⊆ range.rowCells := by
    intro j hj
    obtain ⟨hne, hj⟩ := (List.nodup_range.mem_erase_iff).mp hj
    rw [List.mem_range] at hj
    by_cases hself : j = k
    · exact hself ▸ hk
    · apply range.mem_rowCells_of_tunings (by omega)
      intro c' _ hc'
      omega
  have hnodup : ((List.range (k + 1)).erase (k - 1)).Nodup :=
    List.nodup_range.erase _
  have hlength := (hnodup.subperm hsubset).length_le
  rw [List.length_erase_of_mem (List.mem_range.mpr (by omega)),
    List.length_range] at hlength
  exact hlength

theorem cellRow_toNat {k : ℕ} (hk : k ∈ range.rowCells) :
    (range.cellRow k).1.toNat = (range.lo.toNat + 5 * k) * freqOneMhz ∧
      (range.cellRow k).2.toNat =
        (range.lo.toNat + 5 * k + 5) * freqOneMhz := by
  have hlt := range.lt_of_mem_rowCells hk
  exact ⟨range.toNat_ofNat_mhz _ (by omega),
    range.toNat_ofNat_mhz _ (by omega)⟩

end SweepRange

section File

variable {range : SweepRange} {fftSize : FftSize}
  {sweeps : List (RecordedSweep Stamp V)}

theorem mem_sweepFile {row : SweepRow Stamp V}
    (hrow : row ∈ sweepFile range fftSize sweeps) :
    (∃ sweep ∈ sweeps, row.stamp = sweep.stamp) ∧
      ∃ k ∈ range.rowCells,
        row.hzLow = (range.lo.toNat + 5 * k) * freqOneMhz ∧
        row.hzHigh = (range.lo.toNat + 5 * k + 5) * freqOneMhz := by
  obtain ⟨sweep, hsweep, hrow⟩ := List.mem_flatMap.mp hrow
  obtain ⟨k, hk, rfl⟩ := List.mem_map.mp hrow
  exact ⟨⟨sweep, hsweep, rfl⟩, k, hk, range.cellRow_toNat hk⟩

theorem exists_first_row (range : SweepRange) (fftSize : FftSize)
    (hsweeps : sweeps ≠ []) :
    ∃ row ∈ sweepFile range fftSize sweeps,
      row.hzLow = range.lo.toNat * freqOneMhz := by
  obtain ⟨sweep, others, rfl⟩ := List.exists_cons_of_ne_nil hsweeps
  obtain ⟨rest, hcells⟩ := range.rowCells_eq
  have hzero : 0 ∈ range.rowCells := hcells ▸ List.mem_cons_self
  refine ⟨_, List.mem_flatMap.mpr ⟨sweep, List.mem_cons_self,
    List.mem_map.mpr ⟨0, hzero, rfl⟩⟩, ?_⟩
  exact (range.cellRow_toNat hzero).1

theorem minFreq_sweepFile (hsweeps : sweeps ≠ []) :
    minFreq (sweepFile range fftSize sweeps) =
      range.lo.toNat * freqOneMhz := by
  unfold minFreq
  rw [List.min?_eq_some_iff.mpr ⟨?_, ?_⟩, Option.getD_some]
  · exact List.mem_map.mpr (exists_first_row range fftSize hsweeps)
  · intro low hlow
    obtain ⟨row, hrow, rfl⟩ := List.mem_map.mp hlow
    obtain ⟨-, k, -, hrowLow, -⟩ := mem_sweepFile hrow
    rw [hrowLow]
    exact Nat.mul_le_mul_right _ (by omega)

theorem maxFreq_sweepFile (range : SweepRange) (fftSize : FftSize)
    (hsweeps : sweeps ≠ []) :
    range.lo.toNat * freqOneMhz ≤ maxFreq (sweepFile range fftSize sweeps) ∧
      maxFreq (sweepFile range fftSize sweeps) ≤
        (range.lo.toNat + 5 * (range.rowCells.length + 1)) * freqOneMhz := by
  obtain ⟨high, hhigh⟩ : ∃ high,
      ((sweepFile range fftSize sweeps).map SweepRow.hzHigh).max? =
        some high := by
    obtain ⟨row, hrow, -⟩ := exists_first_row range fftSize hsweeps
    rw [← Option.isSome_iff_exists, List.isSome_max?_iff]
    exact List.ne_nil_of_mem (List.mem_map_of_mem hrow)
  unfold maxFreq
  rw [hhigh, Option.getD_some]
  obtain ⟨row, hrow, rfl⟩ := List.mem_map.mp
    (List.max?_eq_some_iff.mp hhigh).1
  obtain ⟨-, k, hk, -, hrowHigh⟩ := mem_sweepFile hrow
  have hle := range.le_length_rowCells hk
  rw [hrowHigh]
  exact ⟨Nat.mul_le_mul_right _ (by omega), Nat.mul_le_mul_right _ (by omega)⟩

theorem group_sweepFile [LinearOrder Stamp] (stamp : Stamp) :
    group SweepRow.stamp (sweepFile range fftSize sweeps) stamp =
      sweepFile range fftSize (sweeps.filter fun sweep =>
        sweep.stamp = stamp) := by
  induction sweeps with
  | nil => rfl
  | cons sweep others ih =>
      unfold group sweepFile at ih ⊢
      rw [List.flatMap_cons, List.filter_append, ih, List.filter_cons]
      split_ifs with hstamp
      · rw [List.flatMap_cons, List.filter_eq_self.mpr]
        intro row hrow
        obtain ⟨k, -, rfl⟩ := List.mem_map.mp hrow
        exact hstamp
      · rw [List.filter_eq_nil_iff.mpr, List.nil_append]
        intro row hrow
        obtain ⟨k, -, rfl⟩ := List.mem_map.mp hrow
        exact hstamp

theorem ravel_sweepFile_length :
    (ravel (sweepFile range fftSize sweeps)).length =
      sweeps.length * (range.rowCells.length * fftSize.quarter) := by
  induction sweeps with
  | nil => simp [sweepFile, ravel]
  | cons sweep others ih =>
      unfold sweepFile ravel at ih ⊢
      rw [List.flatMap_cons, List.flatMap_append, List.length_append, ih,
        List.length_cons, Nat.add_mul, Nat.one_mul, Nat.add_comm]
      simp [RecordedSweep.rows, List.length_flatMap, Function.comp_def]

theorem ravel_sweepFile_quarter (sweep : RecordedSweep Stamp V)
    (others : List (RecordedSweep Stamp V)) :
    (ravel (sweepFile range fftSize
      (sweep :: others)))[fftSize.quarter]? = some (sweep.level 2 0) := by
  obtain ⟨rest, hcells⟩ := range.rowCells_eq
  have hpos := fftSize.quarter_pos
  have hsplit : ∃ values, ravel (sweepFile range fftSize (sweep :: others)) =
      (List.range fftSize.quarter).map (sweep.level 0) ++
        ((List.range fftSize.quarter).map (sweep.level 2) ++ values) := by
    unfold sweepFile ravel RecordedSweep.rows
    rw [List.flatMap_cons, hcells, List.map_cons, List.map_cons,
      List.cons_append, List.cons_append, List.flatMap_cons,
      List.flatMap_cons]
    exact ⟨_, rfl⟩
  obtain ⟨values, hvalues⟩ := hsplit
  rw [hvalues, List.getElem?_append_right (by simp), List.length_map,
    List.length_range, Nat.sub_self, List.getElem?_append_left (by simpa),
    List.getElem?_map, List.getElem?_range hpos]
  rfl

end File

/-! ## The names of the columns -/

theorem fl_le_crude {x : ℚ} (hx : 0 ≤ x) : fl 53 x ≤ x * (1001 / 1000) := by
  apply (fl_le_mul_one_add 53 hx).trans
  gcongr
  norm_num

theorem crude_le_fl {x : ℚ} (hx : 0 ≤ x) : x * (999 / 1000) ≤ fl 53 x := by
  refine le_trans ?_ (mul_one_sub_le_fl 53 hx)
  gcongr
  norm_num

/-- A step which is taken to be at most 7.5 MHz wide still is about that
after rounding. -/
theorem step_le {width numBins x : ℕ} (hbins : 0 < numBins)
    (hwidth : x * width ≤ 7500000 * numBins) :
    0 ≤ fl 53 (fl 53 x * fl 53 (fl 53 width / fl 53 numBins)) ∧
      fl 53 (fl 53 x * fl 53 (fl 53 width / fl 53 numBins)) ≤ 7600000 := by
  have hx : (0 : ℚ) ≤ x := by positivity
  have hw : (0 : ℚ) ≤ width := by positivity
  have hn : (0 : ℚ) < numBins := by exact_mod_cast hbins
  have hflx := fl_nonneg 53 (by norm_num) hx
  have hflw := fl_nonneg 53 (by norm_num) hw
  have hfln := fl_pos 53 (by norm_num) hn
  have hquot : 0 ≤ fl 53 width / fl 53 numBins := by positivity
  have hbin := fl_nonneg 53 (by norm_num) hquot
  have hprod : 0 ≤ fl 53 x * fl 53 (fl 53 width / fl 53 numBins) := by
    positivity
  refine ⟨fl_nonneg 53 (by norm_num) hprod, ?_⟩
  have hexact : (x : ℚ) * (width / numBins) ≤ 7500000 := by
    rw [← mul_div_assoc, div_le_iff₀ hn]
    exact_mod_cast hwidth
  calc fl 53 (fl 53 x * fl 53 (fl 53 width / fl 53 numBins))
      ≤ fl 53 x * fl 53 (fl 53 width / fl 53 numBins) * (1001 / 1000) :=
        fl_le_crude hprod
    _ ≤ x * (1001 / 1000) *
          (fl 53 width / fl 53 numBins * (1001 / 1000)) * (1001 / 1000) := by
        gcongr
        · exact fl_le_crude hx
        · exact fl_le_crude hquot
    _ ≤ x * (1001 / 1000) *
          (width * (1001 / 1000) / (numBins * (999 / 1000)) *
            (1001 / 1000)) * (1001 / 1000) := by
        gcongr
        · exact fl_le_crude hw
        · exact crude_le_fl hn.le
    _ = x * (width / numBins) *
          ((1001 / 1000) ^ 4 / (999 / 1000)) := by
        field_simp
    _ ≤ 7500000 * ((1001 / 1000) ^ 4 / (999 / 1000)) := by gcongr
    _ ≤ 7600000 := by norm_num

theorem columnName_lt {low high numBins x : ℕ} (hlow : low ≤ 7250000000)
    (hle : low ≤ high) (hbins : 0 < numBins)
    (hwidth : x * (high - low) ≤ 7500000 * numBins) :
    columnName low high numBins x < (low + 10000000 : ℕ) := by
  obtain ⟨hnonneg, hstep⟩ := step_le hbins hwidth
  have hcast : (((high : ℤ) - low : ℤ) : ℚ) = ((high - low : ℕ) : ℚ) := by
    rw [← Nat.cast_sub hle, Int.cast_natCast]
  have hexact : fl 53 (low : ℚ) = low := by
    have hsmall : |(low : ℤ)| < 2 ^ 53 := by
      rw [Nat.abs_cast]
      omega
    exact_mod_cast fl_intCast 53 hsmall
  have hlow' : (low : ℚ) ≤ 7250000000 := by exact_mod_cast hlow
  have hsum : (0 : ℚ) ≤ low + fl 53 (fl 53 x *
      fl 53 (fl 53 ((high - low : ℕ) : ℚ) / fl 53 numBins)) := by positivity
  have hround := fl_le_mul_one_add 53 hsum
  unfold columnName binSize
  rw [Int.floor_lt, hcast, hexact]
  push_cast at hround ⊢
  nlinarith

/-! ## The table -/

section Table

variable {range : SweepRange} {fftSize : FftSize}
  {sweeps : List (RecordedSweep Stamp V)}

theorem binName_zero (fftSize : FftSize) (hzLow : ℕ) :
    binName fftSize hzLow 0 = hzLow := by
  simp [binName]

/-- The columns of a file are named so densely that the second row of a sweep
begins below its own frequency. -/
theorem columnName_quarter_lt (range : SweepRange) (fftSize : FftSize)
    (hsweeps : sweeps ≠ []) {count : ℕ} (hcount : 0 < count) :
    columnName (minFreq (sweepFile range fftSize sweeps))
        (maxFreq (sweepFile range fftSize sweeps))
        (count * (range.rowCells.length * fftSize.quarter))
        fftSize.quarter <
      ((range.lo.toNat + 10) * freqOneMhz : ℕ) := by
  have hpos := fftSize.quarter_pos
  have hlo := range.lo_lt
  have hhi := range.hi_le
  obtain ⟨rest, hcells⟩ := range.rowCells_eq
  obtain ⟨rows, hrows⟩ : ∃ rows, range.rowCells.length = rows + 2 := by
    rw [hcells]
    exact ⟨rest.length, rfl⟩
  obtain ⟨hle, hmax⟩ := maxFreq_sweepFile range fftSize hsweeps
  rw [hrows] at hmax ⊢
  have hten : (range.lo.toNat + 10) * freqOneMhz =
      range.lo.toNat * freqOneMhz + 10000000 := by
    unfold freqOneMhz
    omega
  have hlow : range.lo.toNat * freqOneMhz ≤ 7250000000 := by
    unfold freqMaxMhz freqOneMhz at *
    omega
  have hwidth : maxFreq (sweepFile range fftSize sweeps) -
      range.lo.toNat * freqOneMhz ≤ 7500000 * (rows + 2) := by
    unfold freqOneMhz at *
    omega
  rw [minFreq_sweepFile hsweeps, hten]
  apply columnName_lt hlow hle (by positivity)
  calc fftSize.quarter * (maxFreq (sweepFile range fftSize sweeps) -
        range.lo.toNat * freqOneMhz)
      ≤ fftSize.quarter * (7500000 * (rows + 2)) :=
        Nat.mul_le_mul_left _ hwidth
    _ = 7500000 * (1 * ((rows + 2) * fftSize.quarter)) := by ring
    _ ≤ 7500000 * (count * ((rows + 2) * fftSize.quarter)) := by
        gcongr
        exact hcount

variable [LinearOrder Stamp]

/-- A group of the file is made of the sweeps with its timestamp, and the
first of them has the value from 10 MHz behind its first row. -/
theorem ravel_group_namedFile {row : SweepRow Stamp (V × ℤ)}
    (hrow : row ∈ namedFile range fftSize sweeps) :
    let values := ravel (group SweepRow.stamp
      (namedFile range fftSize sweeps) row.stamp)
    (∃ count, 0 < count ∧ values.length =
      count * (range.rowCells.length * fftSize.quarter)) ∧
    ∃ value : V, values[fftSize.quarter]? =
      some (value, (((range.lo.toNat + 10) * freqOneMhz : ℕ) : ℤ)) := by
  obtain ⟨rest, hcells⟩ := range.rowCells_eq
  obtain ⟨named, hnamed, hstamp⟩ := (mem_sweepFile hrow).1
  have hgroup : ((sweeps.map (RecordedSweep.named range fftSize)).filter
      fun named => named.stamp = row.stamp) ≠ [] :=
    List.ne_nil_of_mem (List.mem_filter.mpr
      ⟨hnamed, decide_eq_true hstamp.symm⟩)
  obtain ⟨first, others, hfirst⟩ := List.exists_cons_of_ne_nil hgroup
  obtain ⟨source, -, hsource⟩ := List.mem_map.mp (List.mem_filter.mp
    (hfirst ▸ List.mem_cons_self : first ∈ _)).1
  have hname : (first.level 2 0).2 =
      ((range.lo.toNat + 10) * freqOneMhz : ℕ) := by
    have hsecond := (range.cellRow_toNat
      (show 2 ∈ range.rowCells by simp [hcells])).1
    rw [← hsource, ← hsecond]
    exact binName_zero fftSize _
  dsimp only
  rw [namedFile, group_sweepFile, hfirst]
  constructor
  · exact ⟨others.length + 1, Nat.succ_pos _, by
      rw [ravel_sweepFile_length, List.length_cons]⟩
  · exact ⟨(first.level 2 0).1, by rw [ravel_sweepFile_quarter, ← hname]⟩

/-- In every table that is returned, a value from 10 MHz above the start of
the range stands in a column with a lower name. -/
theorem exists_misnamed {table : SweepTable Stamp (V × ℤ)}
    (hread : readHackrfSweepFileAndMerge (namedFile range fftSize sweeps) =
      some table) :
    ∃ row ∈ table.rows, ∃ (value : V) (name : ℤ),
      row.2[fftSize.quarter]? =
        some (value, (((range.lo.toNat + 10) * freqOneMhz : ℕ) : ℤ)) ∧
      table.columns[fftSize.quarter]? = some name ∧
      name < ((range.lo.toNat + 10) * freqOneMhz : ℕ) := by
  obtain ⟨numBins, hsizes, hcolumns, hrows⟩ := read_eq_some hread
  obtain ⟨stamp, ⟨row, hrow, rfl⟩, hmem, hlength⟩ :=
    exists_mem_mergedRows hsizes
  obtain ⟨⟨count, hcount, hsize⟩, value, hvalue⟩ :=
    ravel_group_namedFile hrow
  have hlast : fftSize.quarter < numBins := by
    rw [← hlength]
    exact (List.getElem?_eq_some_iff.mp hvalue).1
  have hnonempty : sweeps.map (RecordedSweep.named range fftSize) ≠ [] := by
    obtain ⟨named, hnamed, -⟩ := (mem_sweepFile hrow).1
    exact List.ne_nil_of_mem hnamed
  refine ⟨_, hrows ▸ hmem, value, _, hvalue, ?_,
    columnName_quarter_lt range fftSize hnonempty hcount⟩
  rw [hcolumns, List.getElem?_map, List.getElem?_range hlast, Option.map_some,
    ← hsize, hlength]
  rfl

theorem not_namesBins {table : SweepTable Stamp (V × ℤ)}
    (hread : readHackrfSweepFileAndMerge (namedFile range fftSize sweeps) =
      some table) : ¬ NamesBins table := by
  intro hnames
  obtain ⟨row, hrow, value, name, hvalue, hname, hlt⟩ := exists_misnamed hread
  have hcolumn := congrArg (·[fftSize.quarter]?) (hnames row hrow)
  rw [List.getElem?_map, hvalue, hname, Option.map_some,
    Option.some.injEq] at hcolumn
  exact absurd hcolumn hlt.ne'

theorem exists_table (range : SweepRange) (fftSize : FftSize)
    (hsweeps : sweeps ≠ [])
    (hstamps : (sweeps.map RecordedSweep.stamp).Nodup) :
    ∃ table, readHackrfSweepFileAndMerge (namedFile range fftSize sweeps) =
      some table := by
  have hfile : namedFile range fftSize sweeps ≠ [] := by
    obtain ⟨row, hrow, -⟩ := exists_first_row range fftSize
      (mt List.map_eq_nil_iff.mp hsweeps)
    exact List.ne_nil_of_mem hrow
  refine exists_read_of_sizes (1 * (range.rowCells.length * fftSize.quarter))
    hfile fun row hrow => ?_
  obtain ⟨named, hnamed, hstamp⟩ := (mem_sweepFile hrow).1
  obtain ⟨sweep, hsweep, rfl⟩ := List.mem_map.mp hnamed
  -- its timestamp belongs to one sweep only
  have hmem : row.stamp ∈ sweeps.map RecordedSweep.stamp :=
    hstamp ▸ List.mem_map_of_mem hsweep
  have hone : ((sweeps.map (RecordedSweep.named range fftSize)).filter
      fun named => named.stamp = row.stamp).length = 1 := by
    rw [← List.countP_eq_length_filter, List.countP_map,
      ← List.count_eq_one_of_mem hstamps hmem, List.count, List.countP_map]
    apply List.countP_congr
    intro sweep _
    simp only [Function.comp_apply, RecordedSweep.named, beq_iff_eq]
    exact decide_eq_true_iff
  rw [namedFile, group_sweepFile, ravel_sweepFile_length, hone]

/-- The reader returns a table for every file of complete sweeps at different
times, and no table which it returns for such a file, or for sweeps which
share a timestamp, names the bins right. -/
theorem namesBins_fails (range : SweepRange) (fftSize : FftSize)
    (sweeps : List (RecordedSweep Stamp V)) :
    (sweeps ≠ [] → (sweeps.map RecordedSweep.stamp).Nodup →
      ∃ table, readHackrfSweepFileAndMerge
        (namedFile range fftSize sweeps) = some table) ∧
    ∀ table, readHackrfSweepFileAndMerge
        (namedFile range fftSize sweeps) = some table → ¬ NamesBins table :=
  ⟨exists_table range fftSize, fun _ => not_namesBins⟩

/-- The names are only carried along: without them the reader returns the
same table. -/
theorem read_sweepFile (range : SweepRange) (fftSize : FftSize)
    (sweeps : List (RecordedSweep Stamp V)) :
    readHackrfSweepFileAndMerge (sweepFile range fftSize sweeps) =
      (readHackrfSweepFileAndMerge (namedFile range fftSize sweeps)).map
        (SweepTable.map Prod.fst) := by
  have hfile : (namedFile range fftSize sweeps).map (SweepRow.map Prod.fst) =
      sweepFile range fftSize sweeps := by
    unfold namedFile sweepFile
    rw [List.flatMap_map, List.map_flatMap]
    refine congrArg (List.flatMap · sweeps) (funext fun sweep => ?_)
    simp [RecordedSweep.rows, RecordedSweep.named, SweepRow.map,
      Function.comp_def]
  rw [← read_map, hfile]

end Table

theorem namesBins_fails_twoSweeps :
    ∃ table, readHackrfSweepFileAndMerge
        (namedFile ⟨88, 108, by decide, by decide⟩
          ⟨20, by decide, by decide, by decide⟩
          [⟨0, fun _ _ => ()⟩, ⟨1, fun _ _ => ()⟩]) = some table ∧
      ¬ NamesBins table := by
  obtain ⟨hreturns, hmisnames⟩ :=
    namesBins_fails ⟨88, 108, by decide, by decide⟩
      ⟨20, by decide, by decide, by decide⟩
      [(⟨0, fun _ _ => ()⟩ : RecordedSweep ℕ Unit), ⟨1, fun _ _ => ()⟩]
  obtain ⟨table, hread⟩ := hreturns (by simp) (by simp)
  exact ⟨table, hread, hmisnames table hread⟩

/-- In a sweep from 0 to 20 MHz with four bins, the value from 10 MHz stands
in the second column. -/
theorem namesBins_fails_oneSweep :
    ∃ table, readHackrfSweepFileAndMerge
        (namedFile ⟨0, 20, by decide, by decide⟩
          ⟨4, by decide, by decide, by decide⟩
          [(⟨0, fun _ _ => ()⟩ : RecordedSweep ℕ Unit)]) = some table ∧
      ¬ NamesBins table ∧
      ∃ row ∈ table.rows, ∃ value name,
        row.2[1]? = some (value, 10000000) ∧
        table.columns[1]? = some name ∧ name < 10000000 := by
  obtain ⟨table, hread⟩ :=
    exists_table ⟨0, 20, by decide, by decide⟩
      ⟨4, by decide, by decide, by decide⟩
      (show [(⟨0, fun _ _ => ()⟩ : RecordedSweep ℕ Unit)] ≠ [] by simp)
      (by simp)
  exact ⟨table, hread, not_namesBins hread, exists_misnamed hread⟩

end HackRF.Sweep
