import HackRF.SweepLabels

/-!
# Files of several sweeps

The lines of a sweep share its timestamp and stand in the file in their order,
with the lines of other sweeps before, behind or between them.  `read_csv` makes
one rectangular table of them.  The reader gives every sweep of the most
frequent size back as one row of its table, in the order of their times, and
drops the others.
-/

namespace HackRF.SweepReader

open RowGroups

variable {Stamp V : Type*}

/-- A file as `read_csv` returns it: every line has as many levels as the first
one.  A shorter line has been filled up with NaN, and a longer one is an
error. -/
structure ParsedFile (Stamp V : Type*) where
  rows : List (SweepRow Stamp V)
  width : ℕ
  width_pos : 0 < width
  rectangular : ∀ row ∈ rows, row.values.length = width

/-- The lines of one sweep. -/
structure SweepLines (Stamp V : Type*) where
  stamp : Stamp
  lines : List (SweepRow Stamp V)
  stamped : ∀ row ∈ lines, row.stamp = stamp
  nonempty : lines ≠ []

namespace SweepLines

/-- All the levels of the sweep, line after line. -/
def levels (sweep : SweepLines Stamp V) : List V := ravel sweep.lines

/-- The row which the sweep is to become. -/
def merged (sweep : SweepLines Stamp V) : Stamp × List V :=
  (sweep.stamp, sweep.levels)

def size (sweep : SweepLines Stamp V) : ℕ := sweep.levels.length

end SweepLines

/-- The size that more sweeps have than any other size. -/
structure IsUsualSize (sweeps : List (SweepLines Stamp V)) (size : ℕ) :
    Prop where
  occurs : ∃ sweep ∈ sweeps, sweep.size = size
  most : ∀ sweep ∈ sweeps, sweep.size ≠ size →
    sweeps.countP (·.size = sweep.size) < sweeps.countP (·.size = size)

instance (sweeps : List (SweepLines Stamp V)) (size : ℕ) :
    Decidable (IsUsualSize sweeps size) :=
  decidable_of_iff
    ((∃ sweep ∈ sweeps, sweep.size = size) ∧
      ∀ sweep ∈ sweeps, sweep.size ≠ size →
        sweeps.countP (·.size = sweep.size) < sweeps.countP (·.size = size))
    ⟨fun h => ⟨h.1, h.2⟩, fun h => ⟨h.occurs, h.most⟩⟩

/-! ## The most frequent size -/

theorem mode_sizes_iff {sweeps : List (SweepLines Stamp V)} {size : ℕ} :
    mode (sweeps.map SweepLines.size) = [size] ↔ IsUsualSize sweeps size := by
  have hcount : ∀ other, (sweeps.map SweepLines.size).count other =
      sweeps.countP (·.size = other) := by
    intro other
    rw [List.count, List.countP_map]
    rfl
  rw [mode_eq_singleton_iff, List.mem_map]
  simp only [hcount, List.forall_mem_map]
  exact ⟨fun h => ⟨h.1, h.2⟩, fun h => ⟨h.occurs, h.most⟩⟩

section File

variable [LinearOrder Stamp]

/-- The file holds the lines of the sweeps and no other lines.  Those of one
sweep are in their order. -/
structure HoldsSweeps (rows : List (SweepRow Stamp V))
    (sweeps : List (SweepLines Stamp V)) : Prop where
  lines : ∀ sweep ∈ sweeps,
    group SweepRow.stamp rows sweep.stamp = sweep.lines
  stamps : ∀ row ∈ rows, ∃ sweep ∈ sweeps, row.stamp = sweep.stamp

/-! ## One sweep after the other -/

theorem group_lines (sweep : SweepLines Stamp V) :
    group SweepRow.stamp sweep.lines sweep.stamp = sweep.lines := by
  rw [group, List.filter_eq_self]
  intro row hrow
  exact decide_eq_true (sweep.stamped row hrow)

theorem group_lines_of_ne {sweep : SweepLines Stamp V} {stamp : Stamp}
    (hstamp : sweep.stamp ≠ stamp) :
    group SweepRow.stamp sweep.lines stamp = [] := by
  rw [group, List.filter_eq_nil_iff]
  intro row hrow
  rw [sweep.stamped row hrow, decide_eq_true_iff]
  exact hstamp

theorem group_append (first second : List (SweepRow Stamp V))
    (stamp : Stamp) :
    group SweepRow.stamp (first ++ second) stamp =
      group SweepRow.stamp first stamp ++ group SweepRow.stamp second stamp :=
  List.filter_append ..

theorem group_flatMap_of_notMem {sweeps : List (SweepLines Stamp V)}
    {stamp : Stamp} (hstamp : stamp ∉ sweeps.map SweepLines.stamp) :
    group SweepRow.stamp (sweeps.flatMap SweepLines.lines) stamp = [] := by
  induction sweeps with
  | nil => rfl
  | cons sweep others ih =>
      rw [List.map_cons, List.mem_cons, not_or] at hstamp
      rw [List.flatMap_cons, group_append, group_lines_of_ne (Ne.symm hstamp.1),
        ih hstamp.2, List.append_nil]

/-- Sweeps written one after the other, each with a timestamp of its own. -/
theorem holdsSweeps_flatMap {sweeps : List (SweepLines Stamp V)}
    (hstamps : (sweeps.map SweepLines.stamp).Nodup) :
    HoldsSweeps (sweeps.flatMap SweepLines.lines) sweeps where
  lines := by
    induction sweeps with
    | nil => exact fun sweep hsweep => absurd hsweep List.not_mem_nil
    | cons first others ih =>
        obtain ⟨hfirst, hothers⟩ := List.nodup_cons.mp hstamps
        intro sweep hsweep
        rw [List.flatMap_cons, group_append]
        rcases List.mem_cons.mp hsweep with rfl | hmem
        · rw [group_lines, group_flatMap_of_notMem hfirst, List.append_nil]
        · have hne : first.stamp ≠ sweep.stamp := fun hsame =>
            hfirst (hsame ▸ List.mem_map_of_mem hmem)
          rw [group_lines_of_ne hne, List.nil_append, ih hothers sweep hmem]
  stamps := by
    intro row hrow
    obtain ⟨sweep, hsweep, hline⟩ := List.mem_flatMap.mp hrow
    exact ⟨sweep, hsweep, sweep.stamped row hline⟩

/-! ## The groups of a file -/

namespace HoldsSweeps

variable {rows : List (SweepRow Stamp V)} {sweeps : List (SweepLines Stamp V)}

theorem groupBy_eq (hholds : HoldsSweeps rows sweeps)
    (hsorted : (sweeps.map SweepLines.stamp).SortedLT) :
    groupBy SweepRow.stamp rows =
      sweeps.map fun sweep => (sweep.stamp, sweep.lines) := by
  have hkeys : keys SweepRow.stamp rows = sweeps.map SweepLines.stamp := by
    apply keys_eq_of_sorted hsorted
    intro stamp
    rw [List.mem_map]
    constructor
    · rintro ⟨sweep, hsweep, rfl⟩
      -- a sweep has a line, which is in the file
      obtain ⟨row, rest, hlines⟩ :=
        List.exists_cons_of_ne_nil sweep.nonempty
      have hrow : row ∈ group SweepRow.stamp rows sweep.stamp := by
        rw [hholds.lines sweep hsweep, hlines]
        exact List.mem_cons_self
      exact ⟨row, (List.mem_filter.mp hrow).1,
        of_decide_eq_true (List.mem_filter.mp hrow).2⟩
    · rintro ⟨row, hrow, rfl⟩
      obtain ⟨sweep, hsweep, hstamp⟩ := hholds.stamps row hrow
      exact ⟨sweep, hsweep, hstamp.symm⟩
  rw [groupBy, hkeys, List.map_map]
  apply List.map_congr_left
  intro sweep hsweep
  rw [Function.comp_apply, hholds.lines sweep hsweep]

theorem expectedSizes_eq (hholds : HoldsSweeps rows sweeps)
    (hsorted : (sweeps.map SweepLines.stamp).SortedLT) :
    expectedSizes rows = mode (sweeps.map SweepLines.size) := by
  rw [expectedSizes, hholds.groupBy_eq hsorted, List.map_map]
  rfl

theorem mergedRows_eq (hholds : HoldsSweeps rows sweeps)
    (hsorted : (sweeps.map SweepLines.stamp).SortedLT) (numBins : ℕ) :
    mergedRows numBins rows =
      (sweeps.filter (·.size = numBins)).map SweepLines.merged := by
  rw [mergedRows, completeRows, groupBy_filterGroups,
    hholds.groupBy_eq hsorted, List.filter_map, List.map_map]
  rfl

end HoldsSweeps

namespace HoldsSweeps

variable {rows : List (SweepRow Stamp V)} {sweeps : List (SweepLines Stamp V)}

theorem isUsualSize_iff (hholds : HoldsSweeps rows sweeps)
    (hsorted : (sweeps.map SweepLines.stamp).SortedLT) (size : ℕ) :
    IsUsualSize sweeps size ↔
      ∃ table, readHackrfSweepFileAndMerge rows = some table ∧
        table.columns.length = size := by
  rw [← mode_sizes_iff, ← hholds.expectedSizes_eq hsorted]
  constructor
  · intro hexpected
    unfold readHackrfSweepFileAndMerge
    rw [hexpected]
    exact ⟨_, rfl, by simp⟩
  · rintro ⟨table, hread, rfl⟩
    obtain ⟨numBins, hexpected, hcolumns, -⟩ := read_eq_some hread
    rw [hexpected, hcolumns, List.length_map, List.length_range]

theorem rows_of_read (hholds : HoldsSweeps rows sweeps)
    (hsorted : (sweeps.map SweepLines.stamp).SortedLT)
    {table : SweepTable Stamp V}
    (hread : readHackrfSweepFileAndMerge rows = some table) :
    table.rows = (sweeps.filter (·.size = table.columns.length)).map
      SweepLines.merged := by
  obtain ⟨numBins, -, hcolumns, hrows⟩ := read_eq_some hread
  rw [hrows, hholds.mergedRows_eq hsorted, hcolumns, List.length_map,
    List.length_range]

end HoldsSweeps

/-- In a rectangular file the size of a sweep counts its lines. -/
theorem ParsedFile.size_eq {file : ParsedFile Stamp V}
    {sweeps : List (SweepLines Stamp V)} (hholds : HoldsSweeps file.rows sweeps)
    {sweep : SweepLines Stamp V} (hsweep : sweep ∈ sweeps) :
    sweep.size = sweep.lines.length * file.width := by
  have hwidth : ∀ row ∈ sweep.lines, row.values.length = file.width := by
    intro row hrow
    rw [← hholds.lines sweep hsweep] at hrow
    exact file.rectangular row (List.mem_filter.mp hrow).1
  rw [SweepLines.size, SweepLines.levels, ravel, List.length_flatMap,
    List.map_congr_left hwidth, List.map_const', List.sum_replicate,
    smul_eq_mul]

/-- The reader returns a table exactly if one size is the most frequent, with
as many columns; and its rows are the sweeps of this size, in the order of
their times and each with all its levels.  The size of a sweep is its number
of lines, times the levels of a line. -/
theorem read_holdsSweeps (file : ParsedFile Stamp V)
    (sweeps : List (SweepLines Stamp V))
    (hholds : HoldsSweeps file.rows sweeps)
    (hsorted : (sweeps.map SweepLines.stamp).SortedLT) :
    (∀ size, IsUsualSize sweeps size ↔
      ∃ table, readHackrfSweepFileAndMerge file.rows = some table ∧
        table.columns.length = size) ∧
    (∀ table, readHackrfSweepFileAndMerge file.rows = some table →
      table.rows = (sweeps.filter (·.size = table.columns.length)).map
        SweepLines.merged) ∧
    ∀ sweep ∈ sweeps, sweep.size = sweep.lines.length * file.width :=
  ⟨hholds.isUsualSize_iff hsorted, fun _ => hholds.rows_of_read hsorted,
    fun _ => ParsedFile.size_eq hholds⟩

end File

/-- Two sweeps of two lines with the lines of one between those of the other,
and one which was broken off after its first line. -/
theorem read_holdsSweeps_interleaved :
    let row (stamp : ℕ) (hzLow : ℕ) (level : ℤ) : SweepRow ℕ ℤ :=
      ⟨stamp, hzLow, hzLow + 5, [level, level + 1]⟩
    ∃ table, readHackrfSweepFileAndMerge
        [row 2 0 (-70), row 1 0 (-50), row 1 10 (-40), row 2 10 (-60),
          row 3 0 (-80)] = some table ∧
      table.rows = [(1, [-50, -49, -40, -39]), (2, [-70, -69, -60, -59])] := by
  intro row
  let sweeps : List (SweepLines ℕ ℤ) :=
    [⟨1, [row 1 0 (-50), row 1 10 (-40)], by simp [row], by simp⟩,
      ⟨2, [row 2 0 (-70), row 2 10 (-60)], by simp [row], by simp⟩,
      ⟨3, [row 3 0 (-80)], by simp [row], by simp⟩]
  let file : ParsedFile ℕ ℤ := {
    rows := [row 2 0 (-70), row 1 0 (-50), row 1 10 (-40), row 2 10 (-60),
      row 3 0 (-80)]
    width := 2
    width_pos := by decide
    rectangular := by simp [row] }
  obtain ⟨hreads, hrows, -⟩ := read_holdsSweeps file sweeps
    { lines := by simp [file, sweeps, row, group]
      stamps := by simp [file, sweeps, row] } (by decide)
  obtain ⟨table, hread, hcolumns⟩ := (hreads 4).mp (by decide)
  refine ⟨table, hread, ?_⟩
  rw [hrows table hread, hcolumns]
  rfl

/-! ## The files of the text mode -/

section TextMode

open Sweep

/-- The lines of a complete sweep. -/
def ofRecorded (range : SweepRange) (fftSize : FftSize)
    (sweep : RecordedSweep Stamp V) : SweepLines Stamp V where
  stamp := sweep.stamp
  lines := sweep.rows range fftSize
  stamped := by
    intro row hrow
    obtain ⟨cell, -, rfl⟩ := List.mem_map.mp hrow
    rfl
  nonempty := by
    obtain ⟨rest, hcells⟩ := range.rowCells_eq
    simp [RecordedSweep.rows, hcells]

theorem size_ofRecorded (range : SweepRange) (fftSize : FftSize)
    (sweep : RecordedSweep Stamp V) :
    (ofRecorded range fftSize sweep).size =
      range.rowCells.length * fftSize.quarter := by
  have hsize := @ravel_sweepFile_length _ _ range fftSize [sweep]
  simpa [sweepFile, SweepLines.size, SweepLines.levels, ofRecorded] using hsize

/-- A file of complete sweeps at increasing times is read back sweep by
sweep. -/
theorem read_sweepFile [LinearOrder Stamp] (range : SweepRange)
    (fftSize : FftSize) {sweeps : List (RecordedSweep Stamp V)}
    (hsweeps : sweeps ≠ [])
    (hsorted : (sweeps.map RecordedSweep.stamp).SortedLT) :
    ∃ table, readHackrfSweepFileAndMerge (sweepFile range fftSize sweeps) =
        some table ∧
      table.rows = sweeps.map fun sweep => (sweep.stamp,
        range.rowCells.flatMap fun cell =>
          (List.range fftSize.quarter).map (sweep.level cell)) := by
  have hstamps : ((sweeps.map (ofRecorded range fftSize)).map
      SweepLines.stamp).SortedLT := by
    rw [List.map_map]
    exact hsorted
  have hholds : HoldsSweeps (sweepFile range fftSize sweeps)
      (sweeps.map (ofRecorded range fftSize)) := by
    have hfile := holdsSweeps_flatMap hstamps.nodup
    rwa [List.flatMap_map] at hfile
  have hsize : ∀ lines ∈ sweeps.map (ofRecorded range fftSize),
      lines.size = range.rowCells.length * fftSize.quarter := by
    intro lines hlines
    obtain ⟨sweep, -, rfl⟩ := List.mem_map.mp hlines
    exact size_ofRecorded range fftSize sweep
  have husual : IsUsualSize (sweeps.map (ofRecorded range fftSize))
      (range.rowCells.length * fftSize.quarter) := by
    obtain ⟨first, others, rfl⟩ := List.exists_cons_of_ne_nil hsweeps
    exact ⟨⟨_, List.mem_cons_self, size_ofRecorded range fftSize first⟩,
      fun lines hlines hne => absurd (hsize lines hlines) hne⟩
  obtain ⟨table, hread, hlength⟩ := (hholds.isUsualSize_iff hstamps _).mp husual
  refine ⟨table, hread, ?_⟩
  rw [hholds.rows_of_read hstamps hread, hlength, List.filter_eq_self.mpr,
    List.map_map]
  · apply List.map_congr_left
    intro sweep _
    simp [SweepLines.merged, SweepLines.levels, ofRecorded, ravel,
      RecordedSweep.rows, List.flatMap_map]
  · intro lines hlines
    exact decide_eq_true (hsize lines hlines)

end TextMode

end HackRF.SweepReader
