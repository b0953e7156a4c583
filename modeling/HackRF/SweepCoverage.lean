import HackRF.IntervalGrid
import HackRF.SweepProgress

/-!
# The rows of a sweep cover its range

In text mode every transformed block prints two rows of 5 MHz, starting at its
frequency `F` and at `F + 10` MHz.  The device tunes to `lo + 20 * s` and
`lo + 20 * s + 5` MHz, so on the grid of 5 MHz cells from `lo` the rows of one
step are the cells `4s, 4s+2` and `4s+1, 4s+3`: over all steps every cell
occurs once.  The filter at 7250 MHz drops only cells from the requested upper
end on.
-/

namespace HackRF.Sweep

variable {F : Type*}

/-! ## The rows printed -/

/-- The interval `hz_low, hz_high` at the head of a row. -/
def Chunk.bounds : Chunk F → Option (UInt64 × UInt64)
  | .head _ hzLow hzHigh _ _ => some (hzLow, hzHigh)
  | _ => none

def rowBounds (output : List (Chunk F)) : List (UInt64 × UInt64) :=
  output.filterMap Chunk.bounds

def frequencyRows (frequency : UInt64) : List (UInt64 × UInt64) :=
  [(frequency, frequency + UInt64.ofNat (defaultSampleRateHz / 4)),
    (frequency + UInt64.ofNat (defaultSampleRateHz / 2),
      frequency + UInt64.ofNat (defaultSampleRateHz * 3 / 4))]

structure Settings.TextMode (settings : Settings F) : Prop where
  binaryOutput : settings.binaryOutput = false
  ifftOutput : settings.ifftOutput = false

theorem rowBounds_append (first second : List (Chunk F)) :
    rowBounds (first ++ second) = rowBounds first ++ rowBounds second :=
  List.filterMap_append

theorem rowBounds_levels (powers : List F) :
    rowBounds (powers.map .level) = [] := by
  induction powers with
  | nil => rfl
  | cons power rest ih => exact ih

namespace State

variable (ops : FloatOps F) {settings : Settings F} (state : State F)

/-- The rows printed are those of the blocks transformed. -/
def PrintsRows : Prop :=
  rowBounds state.output =
    state.transformed.flatMap fun entry => frequencyRows entry.frequency

theorem rowBounds_textRow (hzLow hzHigh : UInt64) (offset : ℕ) :
    rowBounds (state.textRow settings hzLow hzHigh offset) =
      [(hzLow, hzHigh)] := by
  have hlevels := rowBounds_levels (state.powers settings offset)
  unfold textRow
  rw [List.cons_append, ← List.singleton_append, rowBounds_append,
    rowBounds_append, hlevels]
  rfl

theorem emitText_rowBounds (frequency : UInt64) :
    rowBounds (state.emitText settings frequency).output =
      rowBounds state.output ++ frequencyRows frequency := by
  unfold emitText
  simp only [rowBounds_append, rowBounds_textRow, rowBounds_levels,
    List.append_nil, List.append_assoc]
  rfl

variable {state}

theorem enterBlock_of_textMode (state : State F) (htext : settings.TextMode)
    (block : Block) :
    (state.enterBlock ops settings block).output = state.output ∧
      (state.enterBlock ops settings block).transformed =
        state.transformed := by
  unfold State.enterBlock
  cases block.isStart settings with
  | false => exact ⟨rfl, rfl⟩
  | true =>
      simp only [startSweep, htext.ifftOutput, ↓reduceIte, Bool.false_eq_true]
      cases state.sweepStarted with
      | false => exact ⟨rfl, rfl⟩
      | true =>
          obtain ⟨count, exit, hframe⟩ := state.completeSweep_frame settings
          rw [hframe]
          exact ⟨rfl, rfl⟩

theorem processBlock_of_textMode (htext : settings.TextMode) (block : Block) :
    state.processBlock ops settings block =
      (state.transformBlock ops settings block.frequency
        (block.sampleBuf settings)).emitText settings block.frequency := by
  simp [processBlock, emitBlock, htext.binaryOutput, htext.ifftOutput]

theorem PrintsRows.blockStep (htext : settings.TextMode)
    (hprints : state.PrintsRows) (block : Block) :
    (state.blockStep ops settings block).PrintsRows := by
  obtain ⟨houtput, htransformed⟩ :=
    state.enterBlock_of_textMode ops htext block
  have hentered : (state.enterBlock ops settings block).PrintsRows := by
    rw [PrintsRows, houtput, htransformed]
    exact hprints
  unfold State.blockStep
  generalize state.enterBlock ops settings block = entered at *
  dsimp only
  split_ifs
  · rw [processBlock_of_textMode ops htext, PrintsRows, emitText_rowBounds]
    change rowBounds entered.output ++ _ =
      (entered.transformed ++ _).flatMap _
    rw [hentered, List.flatMap_append]
    rfl
  · exact hentered

end State

/-! ## The cells of a sweep -/

/-- The set of frequencies, in Hz, which a row stands for. -/
def rowInterval (row : UInt64 × UInt64) : Set ℝ :=
  Set.Ico (row.1.toNat : ℝ) row.2.toNat

namespace SweepRange

variable (range : SweepRange)

/-- The frequencies, in MHz, which the device tunes to in a sweep of the
range. -/
def tunings : List ℕ :=
  (List.range range.stepCount).flatMap fun s =>
    [range.lo.toNat + tuneStep * s, range.lo.toNat + tuneStep * s + 5]

/-- The blocks of one sweep: one for every tuning, with its frequency in the
header.  `num_samples`, the samples the device sends at a tuning, is nowhere
changed from the 8192 samples of one block. -/
structure IsSweep (blocks : List Block) : Prop where
  marked : ∀ block ∈ blocks, hasMarker block.bytes = true
  frequencies : blocks.map Block.frequency =
    range.tunings.map fun mhz => UInt64.ofNat (mhz * freqOneMhz)

def tuningCells : List ℕ :=
  (List.range range.stepCount).flatMap fun s => [4 * s, 4 * s + 1]

/-- The cells of the rows of all blocks in band. -/
def rowCells : List ℕ :=
  (range.tuningCells.filter fun c =>
    decide (range.lo.toNat + 5 * c ≤ freqMaxMhz)).flatMap fun c => [c, c + 2]

def cellRow (c : ℕ) : UInt64 × UInt64 :=
  (UInt64.ofNat ((range.lo.toNat + 5 * c) * freqOneMhz),
    UInt64.ofNat ((range.lo.toNat + 5 * c + 5) * freqOneMhz))

theorem tunings_eq :
    range.tunings = range.tuningCells.map fun c => range.lo.toNat + 5 * c := by
  unfold tunings tuningCells tuneStep defaultSampleRateHz freqOneMhz
  rw [List.map_flatMap]
  congr 1
  funext s
  simp only [List.map_cons, List.map_nil, List.cons.injEq, and_true]
  omega

theorem mem_tuningCells {c : ℕ} :
    c ∈ range.tuningCells ↔
      ∃ s < range.stepCount, c = 4 * s ∨ c = 4 * s + 1 := by
  simp [tuningCells]

theorem mem_rowCells {k : ℕ} :
    k ∈ range.rowCells ↔
      ∃ c ∈ range.tuningCells,
        range.lo.toNat + 5 * c ≤ freqMaxMhz ∧ (k = c ∨ k = c + 2) := by
  simp [rowCells, and_assoc]

theorem lt_of_mem_rowCells {k : ℕ} (hk : k ∈ range.rowCells) :
    k < 4 * range.stepCount := by
  obtain ⟨c, hc, -, hkc⟩ := range.mem_rowCells.mp hk
  obtain ⟨s, hs, hcs⟩ := range.mem_tuningCells.mp hc
  omega

/-- A cell belongs to a block in band if the tunings up to it are. -/
theorem mem_rowCells_of_tunings {k : ℕ} (hk : k < 4 * range.stepCount)
    (htunings : ∀ c ∈ range.tuningCells, c ≤ k →
      range.lo.toNat + 5 * c ≤ freqMaxMhz) : k ∈ range.rowCells := by
  -- the first row of its block starts in cell `k` or two cells before
  by_cases hfirst : k % 4 < 2
  · have hc : k ∈ range.tuningCells :=
      range.mem_tuningCells.mpr ⟨k / 4, by omega, by omega⟩
    exact range.mem_rowCells.mpr
      ⟨k, hc, htunings k hc le_rfl, .inl rfl⟩
  · have hc : k - 2 ∈ range.tuningCells :=
      range.mem_tuningCells.mpr ⟨k / 4, by omega, by omega⟩
    exact range.mem_rowCells.mpr
      ⟨k - 2, hc, htunings _ hc (Nat.sub_le _ _), .inr (by omega)⟩

theorem nodup_rowCells : range.rowCells.Nodup := by
  have hall : (range.tuningCells.flatMap fun c => [c, c + 2]).Nodup := by
    rw [tuningCells, List.flatMap_assoc, List.nodup_flatMap]
    constructor
    · intro s hs
      simp
      omega
    · refine List.nodup_range.imp fun {s t} hne => ?_
      simp only [Function.onFun, List.Disjoint]
      intro k hs ht
      simp at hs ht
      omega
  exact hall.sublist (List.filter_sublist.flatMap _)

theorem toNat_ofNat_mhz (mhz : ℕ)
    (hmhz : mhz ≤ range.lo.toNat + 20 * range.stepCount + 5) :
    (UInt64.ofNat (mhz * freqOneMhz)).toNat = mhz * freqOneMhz := by
  have hbounds := range.stepCount_bounds
  have hmax := range.hi_le
  apply Sweep.toNat_ofNat_mhz
  unfold freqMaxMhz at hmax
  omega

theorem ofNat_le_maxFrequency_iff {c : ℕ} (hc : c ∈ range.tuningCells) :
    UInt64.ofNat ((range.lo.toNat + 5 * c) * freqOneMhz) ≤ maxFrequency ↔
      range.lo.toNat + 5 * c ≤ freqMaxMhz := by
  obtain ⟨s, hs, hcs⟩ := range.mem_tuningCells.mp hc
  have hbounds := range.stepCount_bounds
  have hmax := range.hi_le
  apply ofNat_mhz_le_maxFrequency_iff
  unfold freqMaxMhz at hmax
  omega

theorem frequencyRows_cell (c : ℕ) :
    frequencyRows (UInt64.ofNat ((range.lo.toNat + 5 * c) * freqOneMhz)) =
      [c, c + 2].map range.cellRow := by
  have hquarter : defaultSampleRateHz / 4 = 5 * freqOneMhz := by norm_num
  have hhalf : defaultSampleRateHz / 2 = 10 * freqOneMhz := by norm_num
  have hthree : defaultSampleRateHz * 3 / 4 = 15 * freqOneMhz := by norm_num
  have hnext : range.lo.toNat + 5 * (c + 2) =
      range.lo.toNat + 5 * c + 10 := by ring
  simp only [frequencyRows, cellRow, ← UInt64.ofNat_add, hquarter, hhalf,
    hthree, hnext, ← Nat.add_mul, Nat.add_assoc, List.map_cons,
    List.map_nil, Nat.reduceAdd]

theorem IsSweep.rows {range : SweepRange} {blocks : List Block}
    (hsweep : range.IsSweep blocks) :
    (blocks.filter Block.inBand).flatMap
        (fun block => frequencyRows block.frequency) =
      range.rowCells.map range.cellRow := by
  have hinBand : (blocks.filter Block.inBand).map Block.frequency =
      (blocks.map Block.frequency).filter fun frequency =>
        decide (frequency ≤ maxFrequency) := by
    rw [List.filter_map]
    refine congrArg _ (List.filter_congr fun block hblock => ?_)
    simp [Block.inBand, hsweep.marked block hblock]
  have hbandCells : (blocks.map Block.frequency).filter
      (fun frequency => decide (frequency ≤ maxFrequency)) =
        (range.tuningCells.filter fun c =>
          decide (range.lo.toNat + 5 * c ≤ freqMaxMhz)).map fun c =>
            UInt64.ofNat ((range.lo.toNat + 5 * c) * freqOneMhz) := by
    rw [hsweep.frequencies, range.tunings_eq, List.map_map, List.filter_map]
    have hfilter : ∀ c ∈ range.tuningCells,
        decide (UInt64.ofNat ((range.lo.toNat + 5 * c) * freqOneMhz) ≤
          maxFrequency) = decide (range.lo.toNat + 5 * c ≤ freqMaxMhz) :=
      fun c hc => decide_eq_decide.mpr (range.ofNat_le_maxFrequency_iff hc)
    simp only [Function.comp_def]
    rw [List.filter_congr hfilter]
  calc (blocks.filter Block.inBand).flatMap
        (fun block => frequencyRows block.frequency)
      = ((blocks.filter Block.inBand).map Block.frequency).flatMap
          frequencyRows := by rw [List.flatMap_map]
    _ = (range.tuningCells.filter fun c =>
          decide (range.lo.toNat + 5 * c ≤ freqMaxMhz)).flatMap
            (fun c => [c, c + 2].map range.cellRow) := by
        rw [hinBand, hbandCells, List.flatMap_map]
        simp only [range.frequencyRows_cell]
    _ = range.rowCells.map range.cellRow := by
        rw [rowCells, List.map_flatMap]

theorem rowInterval_cellRow {k : ℕ} (hk : k < 4 * range.stepCount) :
    rowInterval (range.cellRow k) =
      IntervalGrid.cell ((range.lo.toNat : ℝ) * 1000000) 5000000 k := by
  have hlow := range.toNat_ofNat_mhz (range.lo.toNat + 5 * k) (by omega)
  have hhigh := range.toNat_ofNat_mhz (range.lo.toNat + 5 * k + 5) (by omega)
  unfold rowInterval cellRow IntervalGrid.cell
  rw [hlow, hhigh]
  push_cast
  congr 1 <;> ring

theorem pairwise_disjoint_rows :
    (range.rowCells.map range.cellRow).Pairwise fun row row' =>
      Disjoint (rowInterval row) (rowInterval row') := by
  have hcells := IntervalGrid.pairwise_disjoint_of_nodup
    (a := (range.lo.toNat : ℝ) * 1000000) (w := 5000000) (by norm_num)
    range.nodup_rowCells
  rw [List.pairwise_map]
  apply hcells.imp_of_mem
  intro k l hk hl hdisjoint
  rwa [range.rowInterval_cellRow (range.lt_of_mem_rowCells hk),
    range.rowInterval_cellRow (range.lt_of_mem_rowCells hl)]

theorem exists_row_iff (x : ℝ) :
    (∃ row ∈ range.rowCells.map range.cellRow, x ∈ rowInterval row) ↔
      ∃ k ∈ range.rowCells, x ∈
        IntervalGrid.cell ((range.lo.toNat : ℝ) * 1000000) 5000000 k := by
  constructor
  · rintro ⟨row, hrow, hx⟩
    obtain ⟨k, hk, rfl⟩ := List.mem_map.mp hrow
    rw [range.rowInterval_cellRow (range.lt_of_mem_rowCells hk)] at hx
    exact ⟨k, hk, hx⟩
  · rintro ⟨k, hk, hx⟩
    refine ⟨_, List.mem_map_of_mem hk, ?_⟩
    rwa [range.rowInterval_cellRow (range.lt_of_mem_rowCells hk)]

/-- The rows of a sweep cover the requested range: what the filter drops lies
above it. -/
theorem exists_row_of_mem {x : ℝ}
    (hx : x ∈ Set.Ico ((range.lo.toNat : ℝ) * 1000000)
      (range.hi.toNat * 1000000)) :
    ∃ row ∈ range.rowCells.map range.cellRow, x ∈ rowInterval row := by
  rw [exists_row_iff]
  obtain ⟨k, hk⟩ := IntervalGrid.exists_mem_cell
    (w := (5000000 : ℝ)) (by norm_num) hx.1
  have hbelow : (range.lo.toNat + 5 * k : ℝ) < range.hi.toNat := by
    linarith [hk.1, hx.2]
  have hbelow : range.lo.toNat + 5 * k < range.hi.toNat := by
    exact_mod_cast hbelow
  have hbounds := range.stepCount_bounds
  have hmax := range.hi_le
  have hmem : k ∈ range.rowCells :=
    range.mem_rowCells_of_tunings (by omega) fun c _ hck => by omega
  exact ⟨k, hmem, hk⟩

theorem exists_row_iff_planned {blocks : List Block}
    (hsweep : range.IsSweep blocks) (hband : ∀ block ∈ blocks, block.inBand)
    (x : ℝ) :
    (∃ row ∈ range.rowCells.map range.cellRow, x ∈ rowInterval row) ↔
      x ∈ Set.Ico ((range.lo.toNat : ℝ) * 1000000)
        (range.plannedHi.toNat * 1000000) := by
  have htunings : ∀ c ∈ range.tuningCells,
      range.lo.toNat + 5 * c ≤ freqMaxMhz := by
    intro c hc
    have hmem : UInt64.ofNat ((range.lo.toNat + 5 * c) * freqOneMhz) ∈
        blocks.map Block.frequency := by
      rw [hsweep.frequencies, tunings_eq, List.map_map]
      exact List.mem_map_of_mem hc
    obtain ⟨block, hblock, hfrequency⟩ := List.mem_map.mp hmem
    rw [← range.ofNat_le_maxFrequency_iff hc, ← hfrequency]
    exact Block.frequency_le_of_inBand (hband block hblock)
  have hcells : ∀ k, k ∈ range.rowCells ↔ k < 4 * range.stepCount := fun k =>
    ⟨range.lt_of_mem_rowCells, fun hk =>
      range.mem_rowCells_of_tunings hk fun c hc _ => htunings c hc⟩
  have hend : (range.lo.toNat : ℝ) * 1000000 +
      ((4 * range.stepCount : ℕ) : ℝ) * 5000000 =
        range.plannedHi.toNat * 1000000 := by
    rw [range.plannedHi_toNat]
    push_cast
    ring
  rw [exists_row_iff, ← hend]
  exact IntervalGrid.exists_mem_cell_iff (by norm_num) hcells

end SweepRange

/-! ## The output of a run -/

/-- What the rows of a sweep of the range promise. -/
structure SweepRange.Covered (range : SweepRange) (blocks : List Block)
    (rows : List (UInt64 × UInt64)) : Prop where
  disjoint : rows.Pairwise fun row row' =>
    Disjoint (rowInterval row) (rowInterval row')
  covers : ∀ x ∈ Set.Ico ((range.lo.toNat : ℝ) * 1000000)
    (range.hi.toNat * 1000000), ∃ row ∈ rows, x ∈ rowInterval row
  exact : (∀ block ∈ blocks, block.inBand = true) →
    ∀ x, (∃ row ∈ rows, x ∈ rowInterval row) ↔
      x ∈ Set.Ico ((range.lo.toNat : ℝ) * 1000000)
        (range.plannedHi.toNat * 1000000)

theorem transformed_flatMap_rows (entries : List Transformed) :
    (entries.flatMap fun entry => frequencyRows entry.frequency) =
      (entries.map Transformed.source).flatMap
        fun source => frequencyRows source.1 := by
  rw [List.flatMap_map]
  rfl

theorem source_flatMap_rows (settings : Settings F) (blocks : List Block) :
    ((blocks.map (Block.source settings)).flatMap
        fun source => frequencyRows source.1) =
      blocks.flatMap fun block => frequencyRows block.frequency := by
  rw [List.flatMap_map]
  rfl

/-- If the range is the first one, its sweep begins with a start-frequency
block, so none of its blocks is skipped. -/
theorem SweepRange.IsSweep.transformable {range : SweepRange}
    {settings : Settings F} {sweep : List Block} (hsweep : range.IsSweep sweep)
    (hfirst : settings.frequencies 0 = range.lo) :
    transformable settings sweep = sweep.filter Block.inBand := by
  have hpos := range.stepCount_pos
  obtain ⟨steps, hsteps⟩ : ∃ steps, range.stepCount = steps + 1 :=
    ⟨range.stepCount - 1, by omega⟩
  obtain ⟨tunings, htunings⟩ :
      ∃ tunings, range.tunings = range.lo.toNat :: tunings := by
    rw [SweepRange.tunings, hsteps, List.range_succ_eq_map, List.flatMap_cons]
    exact ⟨_, rfl⟩
  have hfrequencies := hsweep.frequencies
  rw [htunings, List.map_cons] at hfrequencies
  cases sweep with
  | nil => simp at hfrequencies
  | cons block rest =>
      have hblock := (List.cons.inj hfrequencies).1
      have hmarker := hsweep.marked block List.mem_cons_self
      have hfrequency : block.frequency = settings.startFrequency := by
        rw [hblock, ← UInt64.toNat_inj, Settings.startFrequency_toNat, hfirst]
        exact range.toNat_ofNat_mhz _ (by omega)
      have hisStart : block.isStart settings = true := by
        simp [Block.isStart, hmarker, hfrequency]
      simp [HackRF.Sweep.transformable, hisStart]

theorem SweepRange.IsSweep.foldl_source {range : SweepRange}
    {settings : Settings F} {progress : Progress} {before sweep : List Block}
    (hsweep : range.IsSweep sweep)
    (hstart : settings.frequencies 0 = range.lo ∨
      ∃ block ∈ before, block.isStart settings = true)
    (hstarted : progress.sweepStarted = false)
    (hexit : ((before ++ sweep).foldl (Progress.step settings)
      progress).doExit = false) :
    ((before ++ sweep).foldl (Progress.step settings)
        progress).transformed.map Transformed.source =
      progress.transformed.map Transformed.source ++
        (HackRF.Sweep.transformable settings before).map
          (Block.source settings) ++
        (sweep.filter Block.inBand).map (Block.source settings) := by
  rw [List.foldl_append] at hexit ⊢
  have hbefore := Progress.foldl_source (Progress.doExit_of_foldl hexit) hstarted
  rw [← hbefore]
  cases hmiddle : (before.foldl (Progress.step settings)
      progress).sweepStarted with
  | true => exact Progress.foldl_source_of_started hexit hmiddle
  | false =>
      have hnone : ∀ block ∈ before, ¬ block.isStart settings = true := by
        simpa [Progress.foldl_sweepStarted, hstarted] using hmiddle
      rcases hstart with hfirst | ⟨block, hblock, hisStart⟩
      · rw [← hsweep.transformable hfirst]
        exact Progress.foldl_source hexit hmiddle
      · exact absurd hisStart (hnone block hblock)

/-- In a run of `rx_callback` in text mode whose blocks, from some point on,
are those of one sweep of the range, the output has the rows of the blocks
before, then rows which cover the range, then whatever the later blocks print.
-/
theorem sweep_rows_cover (ops : FloatOps F) (settings : Settings F) (zero : F)
    (hfd : settings.fd = true) (htext : settings.TextMode)
    (range : SweepRange) (calls : List (Transfer × Timeval))
    (before sweep after : List Block)
    (hstream : stream calls = before ++ sweep ++ after)
    (hsweep : range.IsSweep sweep)
    (hstart : settings.frequencies 0 = range.lo ∨
      ∃ block ∈ before, block.isStart settings = true)
    (hexit : ((before ++ sweep).foldl (Progress.step settings)
      (State.initial zero).progress).doExit = false) :
    let rows := (sweep.filter Block.inBand).flatMap
      fun block => frequencyRows block.frequency
    (∃ later,
      rowBounds ((State.initial zero).rxCallbacks ops settings calls).output =
        (transformable settings before).flatMap
          (fun block => frequencyRows block.frequency) ++ rows ++ later) ∧
      range.Covered sweep rows := by
  intro rows
  have hrows : rows = range.rowCells.map range.cellRow := hsweep.rows
  refine ⟨?_, ?_⟩
  · have hinitial : (State.initial zero).PrintsRows := rfl
    have hprints := State.rxCallbacks_invariant ops settings State.PrintsRows
      (fun _ block hprints => hprints.blockStep ops htext block)
      (fun _ _ hprints => hprints) hinitial calls
    have hcut := Progress.foldl_transformed_prefix hstream hexit
    rw [← State.rxCallbacks_progress ops settings hfd] at hcut
    obtain ⟨later, hlater⟩ := hcut
    have hsource := hsweep.foldl_source hstart rfl hexit
    refine ⟨later.flatMap fun entry => frequencyRows entry.frequency, ?_⟩
    rw [hprints]
    change List.flatMap _ ((State.initial zero).rxCallbacks ops settings
      calls).progress.transformed = _
    rw [← hlater, List.flatMap_append, transformed_flatMap_rows _, hsource,
      List.flatMap_append, List.flatMap_append, source_flatMap_rows,
      source_flatMap_rows]
    rfl
  · rw [hrows]
    exact {
      disjoint := range.pairwise_disjoint_rows
      covers := fun x hx => range.exists_row_of_mem hx
      exact := fun hband x => range.exists_row_iff_planned hsweep hband x }

/-- One step from 0 MHz, received in the first two blocks of a transfer,
prints the four cells up to 20 MHz. -/
theorem sweep_rows_cover_oneStep :
    let settings : Settings Unit := {
      fd := true
      numSamples := 8192
      numSweeps := 0
      frequencies := fun i => if i = 1 then 20 else 0
      stepCount := 1
      fftSize := ⟨20, by decide, by decide, by decide⟩
      binaryOutput := false
      ifftOutput := false
      oneShot := true
      finiteMode := false
      window := fun _ => () }
    let header : ℕ → UInt8 := fun i => if i < 2 then 0x7F else 0
    let tunedHeader : ℕ → UInt8 := fun i =>
      [0x7F, 0x7F, 0x40, 0x4B, 0x4C].getD i 0
    let transfer : Transfer := {
      buffer := fun i =>
        if i < bytesPerBlock then header i
        else if i < 2 * bytesPerBlock then tunedHeader (i - bytesPerBlock)
        else 0
      validLength := 262144 }
    ∃ later,
      rowBounds ((State.initial ()).rxCallbacks (.forgetful .wrapping) settings
        [(transfer, ⟨0, 0⟩)]).output =
          [(0, 5000000), (10000000, 15000000), (5000000, 10000000),
            (15000000, 20000000)] ++ later := by
  intro settings header tunedHeader transfer
  let sweep := transfer.blocksFrom ⟨0, 0⟩ 0 2
  have hrange : SweepRange.IsSweep
      ⟨0, 20, by decide, by decide⟩ sweep := ⟨by decide, by decide⟩
  obtain ⟨⟨later, hlater⟩, -⟩ := sweep_rows_cover (.forgetful .wrapping)
    settings () rfl ⟨rfl, rfl⟩ _ [(transfer, ⟨0, 0⟩)] [] sweep
    (transfer.blocksFrom ⟨0, 0⟩ 2 14) rfl hrange (.inl rfl) (by decide)
  have hrows : (sweep.filter Block.inBand).flatMap
      (fun block => frequencyRows block.frequency) =
        [(0, 5000000), (10000000, 15000000), (5000000, 10000000),
          (15000000, 20000000)] := by decide
  rw [hrows] at hlater
  exact ⟨later, hlater⟩

end HackRF.Sweep
