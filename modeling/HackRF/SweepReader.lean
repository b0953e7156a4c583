import HackRF.FloatRounding
import HackRF.RowGroups

/-!
# The reader of sweep files

`read_hackrf_sweep_file_and_merge` of `process_sweep_data.py` groups the rows
of a file by their timestamps, discards the groups without the most frequent
number of values, flattens each remaining group to one row of a table and
names the columns.  It raises an exception if several numbers of values are
most frequent.

A row is taken as `pandas` has parsed it, with its timestamp in any order and
its levels of any type, NaN among them; the two columns in front of the levels
are sliced off.
-/

namespace HackRF.SweepReader

open FloatRounding RowGroups

/-- A line of the file, as a row of the table that `read_csv` returns.  All rows
of such a table have the same number of values. -/
structure SweepRow (Stamp V : Type*) where
  stamp : Stamp
  hzLow : ℕ
  hzHigh : ℕ
  values : List V

/-- The table which is returned, with a value for every column in each of its
rows. -/
structure SweepTable (Stamp V : Type*) where
  columns : List ℤ
  rows : List (Stamp × List V)
  rectangular : ∀ row ∈ rows, row.2.length = columns.length

variable {Stamp V : Type*}

/-- `x.values[:, 6:].ravel()`. -/
def ravel (rows : List (SweepRow Stamp V)) : List V :=
  rows.flatMap SweepRow.values

def SweepRow.map {W : Type*} (f : V → W) (row : SweepRow Stamp V) :
    SweepRow Stamp W :=
  { row with values := row.values.map f }

theorem ravel_map {W : Type*} (f : V → W) (rows : List (SweepRow Stamp V)) :
    ravel (rows.map (SweepRow.map f)) = (ravel rows).map f := by
  unfold ravel
  rw [List.flatMap_map, List.map_flatMap]
  rfl

def minFreq (rows : List (SweepRow Stamp V)) : ℕ :=
  (rows.map SweepRow.hzLow).min?.getD 0

def maxFreq (rows : List (SweepRow Stamp V)) : ℕ :=
  (rows.map SweepRow.hzHigh).max?.getD 0

def binSize (minFreq maxFreq numBins : ℕ) : ℚ :=
  fl 53 (fl 53 ((maxFreq : ℤ) - minFreq : ℤ) / fl 53 numBins)

/-- `int((min_freq + x * bin_size))`, for a column at or above 0 Hz. -/
def columnName (minFreq maxFreq numBins x : ℕ) : ℤ :=
  ⌊fl 53 (fl 53 minFreq + fl 53 (fl 53 x * binSize minFreq maxFreq numBins))⌋

variable [LinearOrder Stamp]

/-- The rows which `filter` keeps, as they stand in the file. -/
def completeRows (expectedNumBins : ℕ) (rows : List (SweepRow Stamp V)) :
    List (SweepRow Stamp V) :=
  filterGroups SweepRow.stamp
    (fun group => (ravel group).length = expectedNumBins) rows

/-- `groupby` with an `apply` that makes a series of every group: one row for
each timestamp, in increasing order. -/
def mergedRows (expectedNumBins : ℕ) (rows : List (SweepRow Stamp V)) :
    List (Stamp × List V) :=
  (groupBy SweepRow.stamp (completeRows expectedNumBins rows)).map
    fun group => (group.1, ravel group.2)

theorem mem_mergedRows {expectedNumBins : ℕ}
    {rows : List (SweepRow Stamp V)} {merged : Stamp × List V} :
    merged ∈ mergedRows expectedNumBins rows ↔
      (∃ row ∈ rows, row.stamp = merged.1) ∧
        merged.2 = ravel (group SweepRow.stamp rows merged.1) ∧
        merged.2.length = expectedNumBins := by
  obtain ⟨stamp, values⟩ := merged
  rw [mergedRows, List.mem_map]
  constructor
  · rintro ⟨⟨stamp', members⟩, hmember, hsame⟩
    obtain ⟨rfl, rfl⟩ := Prod.mk.inj hsame
    obtain ⟨hgroup, hkeep⟩ := mem_groupBy_filterGroups.mp hmember
    obtain ⟨hkey, rfl⟩ := mem_groupBy.mp hgroup
    exact ⟨mem_keys.mp hkey, rfl, of_decide_eq_true hkeep⟩
  · rintro ⟨hrow, hvalues, hlength⟩
    refine ⟨(stamp, group SweepRow.stamp rows stamp), ?_,
      Prod.ext rfl hvalues.symm⟩
    rw [hvalues] at hlength
    exact mem_groupBy_filterGroups.mpr
      ⟨mem_groupBy.mpr ⟨mem_keys.mpr hrow, rfl⟩, decide_eq_true hlength⟩

/-- `expected_num_bins`, a series of the most frequent sizes. -/
def expectedSizes (rows : List (SweepRow Stamp V)) : List ℕ :=
  mode ((groupBy SweepRow.stamp rows).map fun group => (ravel group.2).length)

/-- The comparison with `expected_num_bins` yields a series, which `filter`
squeezes to a truth value if it has one element.  With several modes `filter`
raises a `TypeError`. -/
def readHackrfSweepFileAndMerge (rows : List (SweepRow Stamp V)) :
    Option (SweepTable Stamp V) :=
  match expectedSizes rows with
  | [expectedNumBins] => some {
      columns := (List.range expectedNumBins).map
        (columnName (minFreq rows) (maxFreq rows) expectedNumBins)
      rows := mergedRows expectedNumBins rows
      rectangular := fun merged hmerged => by
        rw [List.length_map, List.length_range]
        exact (mem_mergedRows.mp hmerged).2.2 }
  | _ => none

/-! ## What is returned -/

theorem read_eq_some {rows : List (SweepRow Stamp V)}
    {table : SweepTable Stamp V}
    (hread : readHackrfSweepFileAndMerge rows = some table) :
    ∃ numBins, expectedSizes rows = [numBins] ∧
      table.columns = (List.range numBins).map
        (columnName (minFreq rows) (maxFreq rows) numBins) ∧
      table.rows = mergedRows numBins rows := by
  unfold readHackrfSweepFileAndMerge at hread
  split at hread
  · rename_i numBins hsizes
    obtain rfl := Option.some.inj hread
    exact ⟨numBins, hsizes, rfl, rfl⟩
  · cases hread

theorem exists_mem_mergedRows {rows : List (SweepRow Stamp V)} {numBins : ℕ}
    (hsizes : expectedSizes rows = [numBins]) :
    ∃ stamp, (∃ row ∈ rows, row.stamp = stamp) ∧
      (stamp, ravel (group SweepRow.stamp rows stamp)) ∈
        mergedRows numBins rows ∧
      (ravel (group SweepRow.stamp rows stamp)).length = numBins := by
  have hmode : numBins ∈ expectedSizes rows :=
    hsizes ▸ List.mem_cons_self
  obtain ⟨⟨stamp, members⟩, hmembers, rfl⟩ :=
    List.mem_map.mp (mem_of_mem_mode hmode)
  obtain ⟨hkey, rfl⟩ := mem_groupBy.mp hmembers
  have hrow := mem_keys.mp hkey
  exact ⟨stamp, hrow, mem_mergedRows.mpr ⟨hrow, rfl, rfl⟩, rfl⟩

theorem exists_read_of_sizes {rows : List (SweepRow Stamp V)} (size : ℕ)
    (hrows : rows ≠ [])
    (hsizes : ∀ row ∈ rows,
      (ravel (group SweepRow.stamp rows row.stamp)).length = size) :
    ∃ table, readHackrfSweepFileAndMerge rows = some table := by
  have hexpected : expectedSizes rows = [size] := by
    apply mode_of_forall_eq
    · simpa using groupBy_ne_nil hrows
    · intro other hother
      obtain ⟨⟨stamp, members⟩, hmembers, rfl⟩ := List.mem_map.mp hother
      obtain ⟨hkey, rfl⟩ := mem_groupBy.mp hmembers
      obtain ⟨row, hrow, rfl⟩ := mem_keys.mp hkey
      exact hsizes row hrow
  unfold readHackrfSweepFileAndMerge
  rw [hexpected]
  exact ⟨_, rfl⟩

/-! ## The reader does not look at the values -/

section Map

variable {W : Type*}

def SweepTable.map (f : V → W) (table : SweepTable Stamp V) :
    SweepTable Stamp W where
  columns := table.columns
  rows := table.rows.map fun row => (row.1, row.2.map f)
  rectangular := by
    intro row hrow
    obtain ⟨before, hbefore, rfl⟩ := List.mem_map.mp hrow
    rw [List.length_map]
    exact table.rectangular before hbefore

theorem expectedSizes_map (f : V → W) (rows : List (SweepRow Stamp V)) :
    expectedSizes (rows.map (SweepRow.map f)) = expectedSizes rows := by
  have hkey : ∀ row : SweepRow Stamp V, (row.map f).stamp = row.stamp :=
    fun _ => rfl
  unfold expectedSizes
  rw [groupBy_map hkey, List.map_map]
  simp only [Function.comp_def, ravel_map, List.length_map]

theorem mergedRows_map (f : V → W) (numBins : ℕ)
    (rows : List (SweepRow Stamp V)) :
    mergedRows numBins (rows.map (SweepRow.map f)) =
      (mergedRows numBins rows).map fun row => (row.1, row.2.map f) := by
  have hkey : ∀ row : SweepRow Stamp V, (row.map f).stamp = row.stamp :=
    fun _ => rfl
  have hcomplete : completeRows numBins (rows.map (SweepRow.map f)) =
      (completeRows numBins rows).map (SweepRow.map f) := by
    refine filterGroups_map hkey (fun rows => ?_) rows
    rw [ravel_map, List.length_map]
  unfold mergedRows
  rw [hcomplete, groupBy_map hkey, List.map_map, List.map_map]
  simp only [Function.comp_def, ravel_map]

theorem read_map (f : V → W) (rows : List (SweepRow Stamp V)) :
    readHackrfSweepFileAndMerge (rows.map (SweepRow.map f)) =
      (readHackrfSweepFileAndMerge rows).map (SweepTable.map f) := by
  have hmin : minFreq (rows.map (SweepRow.map f)) = minFreq rows := by
    unfold minFreq
    rw [List.map_map]
    rfl
  have hmax : maxFreq (rows.map (SweepRow.map f)) = maxFreq rows := by
    unfold maxFreq
    rw [List.map_map]
    rfl
  unfold readHackrfSweepFileAndMerge
  rw [expectedSizes_map]
  split
  · simp only [hmin, hmax, mergedRows_map, Option.map_some, SweepTable.map]
  · rfl

end Map

end HackRF.SweepReader
