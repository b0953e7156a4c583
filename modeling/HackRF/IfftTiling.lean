import HackRF.IfftBounds
import HackRF.RunTiling
import HackRF.SweepProgress
import Mathlib.Data.List.TakeWhile

/-!
# The runs of a sweep tile the inverse FFT buffer

In `ifft_output` mode a block assigns two runs of `ifftwIn`.  On the grid of
5 MHz cells the block at `lo + 20 * s` assigns the cells `4s` and `4s+2`, the
one at `lo + 20 * s + 5` the cells `4s+1` and `4s+3`, all of them rotated by
half the buffer.  In whatever order the blocks of a sweep come, every element
of the buffer is assigned once, unless the callback skips a block above
7250 MHz.
-/

namespace HackRF.Sweep

open RunTiling

variable {F : Type*}

/-- The frequencies, in MHz, of the blocks of one sweep. -/
def Settings.tunings (settings : Settings F) : List ℕ :=
  (List.range settings.stepCount).flatMap fun s =>
    [(settings.frequencies 0).toNat + 20 * s,
      (settings.frequencies 0).toNat + 20 * s + 5]

/-- The blocks of one sweep in any order, among blocks without a marker. -/
def Settings.IsSweep (settings : Settings F) (blocks : List Block) : Prop :=
  ((blocks.filter fun block => hasMarker block.bytes).map
    Block.frequency).Perm
      (settings.tunings.map fun mhz => UInt64.ofNat (mhz * freqOneMhz))

/-- A sweep is under way when its blocks begin, or begins with the first of
them. -/
def Settings.UnderWay (settings : Settings F) (before sweep : List Block) :
    Prop :=
  (∃ block ∈ before, block.isStart settings = true) ∨
    ∃ block, sweep.find? (fun block => hasMarker block.bytes) = some block ∧
      block.isStart settings = true

structure Settings.IfftMode (settings : Settings F) : Prop where
  binaryOutput : settings.binaryOutput = false
  ifftOutput : settings.ifftOutput = true

def runStarts (ops : FloatOps F) (settings : Settings F)
    (frequency : UInt64) : List ℕ :=
  let first := State.ifftIndex ops settings frequency
  [first, State.ifftNextIndex settings first]

theorem ifftIndices_eq (ops : FloatOps F) (settings : Settings F)
    (frequency : UInt64) :
    ifftIndices ops settings frequency =
      (runStarts ops settings frequency).flatMap
        (run settings.fftSize.quarter) := by
  simp [ifftIndices, runStarts, run]

/-- In this run of the callback, the blocks of the sweep make `4 * step_count`
runs of `fftSize / 4` writes, behind those of the blocks before; and these
runs hit every index below `fftSize * step_count` exactly once. -/
structure Tiles (ops : FloatOps F) (settings : Settings F) (zero : F)
    (calls : List (Transfer × Timeval)) (before : List Block)
    (starts : List ℕ) : Prop where
  length : starts.length = 4 * settings.stepCount
  written : ∃ later,
    ((State.initial zero).rxCallbacks ops settings calls).ifftWritten =
      (transformable settings before).flatMap
          (fun block => ifftIndices ops settings block.frequency) ++
        starts.flatMap (run settings.fftSize.quarter) ++ later
  once : (starts.flatMap (run settings.fftSize.quarter)).Perm
    (List.range (settings.fftSize.size * settings.stepCount))

/-! ## The cells of a sweep -/

section Cells

variable {settings : Settings F} {range : SweepRange}

theorem toUint32_roundedBin_cell (fftSize : FftSize) {c : ℕ}
    (hmax : 5000000 * c ≤ 7250000000) (conv : Uint32Conversion) :
    conv.toFun (fftSize.roundedBin (5000000 * c)) = fftSize.quarter * c ∧
      fftSize.quarter * c < 2 ^ 31 := by
  obtain ⟨hbin, hcell, hfirst⟩ := fftSize.toUint32_roundedBin hmax conv
  rw [fftSize.nearestBin_cell, Nat.mul_mod_right] at hfirst
  rw [fftSize.nearestBin_cell,
    Nat.mul_div_cancel_left _ fftSize.quarter_pos] at hcell
  have hsplit := Nat.div_add_mod
    (conv.toFun (fftSize.roundedBin (5000000 * c))) fftSize.quarter
  rw [hcell, hfirst.mpr rfl, Nat.add_zero] at hsplit
  rw [← hsplit] at hbin
  exact ⟨hsplit.symm, hbin⟩

/-- The runs of a block on the grid start at the rotated cells. -/
theorem Settings.IfftPlan.runStarts_eq (hplan : settings.IfftPlan range)
    (ops : FloatOps F) {c : ℕ}
    (hband : range.lo.toNat + 5 * c ≤ freqMaxMhz) :
    runStarts ops settings
        (UInt64.ofNat ((range.lo.toNat + 5 * c) * freqOneMhz)) =
      [settings.fftSize.quarter * ((c + 2 * range.stepCount) %
          (4 * range.stepCount)),
        settings.fftSize.quarter * ((c + 2 + 2 * range.stepCount) %
          (4 * range.stepCount))] := by
  have hbins := hplan.ifftBins_bounds.1
  have hfrequency : (UInt64.ofNat ((range.lo.toNat + 5 * c) *
      freqOneMhz)).toNat = (range.lo.toNat + 5 * c) * freqOneMhz := by
    apply toNat_ofNat_mhz
    unfold freqMaxMhz at hband
    omega
  have hstart := hplan.startFrequency_toNat
  have hoffset : (UInt64.ofNat ((range.lo.toNat + 5 * c) * freqOneMhz) -
      settings.startFrequency).toNat = 5000000 * c := by
    rw [UInt64.toNat_sub_of_le _ _ (UInt64.le_iff_toNat_le.mpr (by
      rw [hfrequency, hstart]
      exact Nat.mul_le_mul_right _ (by omega))), hfrequency, hstart]
    unfold freqOneMhz
    omega
  have hmax : 5000000 * c ≤ 7250000000 := by
    unfold freqMaxMhz at hband
    omega
  obtain ⟨hexact, hbin⟩ :=
    toUint32_roundedBin_cell settings.fftSize hmax ops.toUint32
  have hindex : State.ifftIndex ops settings
      (UInt64.ofNat ((range.lo.toNat + 5 * c) * freqOneMhz)) =
        settings.fftSize.quarter * ((c + 2 * range.stepCount) %
          (4 * range.stepCount)) := by
    have hrotated := hplan.rotated_eq hbin
    rw [← Nat.mul_add, Nat.mul_mod_mul_left] at hrotated
    rw [← hrotated, ← hexact, ← hoffset]
    rfl
  have hlt : State.ifftIndex ops settings
      (UInt64.ofNat ((range.lo.toNat + 5 * c) * freqOneMhz)) <
        settings.ifftBins := Nat.mod_lt _ hbins
  rw [runStarts, hplan.ifftNextIndex_eq hlt, hindex, ← Nat.mul_add,
    Nat.mul_mod_mul_left, Nat.mod_add_mod, Nat.add_right_comm]

theorem Settings.mem_tunings {s : ℕ} (hs : s < settings.stepCount) :
    (settings.frequencies 0).toNat + 20 * s ∈ settings.tunings ∧
      (settings.frequencies 0).toNat + 20 * s + 5 ∈ settings.tunings := by
  unfold Settings.tunings
  constructor
  · exact List.mem_flatMap.mpr ⟨s, List.mem_range.mpr hs, by simp⟩
  · exact List.mem_flatMap.mpr ⟨s, List.mem_range.mpr hs, by simp⟩

theorem Settings.IfftMode.exists_plan (hmode : settings.IfftMode)
    (hsteps : 1 ≤ settings.stepCount)
    (hband : ∀ mhz ∈ settings.tunings, mhz ≤ freqMaxMhz) :
    ∃ range, settings.IfftPlan range := by
  have hlast := hband _ (Settings.mem_tunings
    (show settings.stepCount - 1 < settings.stepCount by omega)).2
  unfold freqMaxMhz at hlast
  obtain ⟨hi, hhi⟩ : ∃ hi, hi = (settings.frequencies 0).toNat +
      20 * (settings.stepCount - 1) + 1 := ⟨_, rfl⟩
  have hcast : (UInt16.ofNat hi).toNat = hi := by
    apply UInt16.toNat_ofNat_of_lt
    unfold UInt16.size
    omega
  obtain ⟨range, hlo, hrange⟩ : ∃ range : SweepRange,
      range.lo = settings.frequencies 0 ∧ range.hi.toNat = hi :=
    ⟨{ lo := settings.frequencies 0
       hi := UInt16.ofNat hi
       lo_lt_hi := by
        rw [UInt16.lt_iff_toNat_lt, hcast]
        omega
       hi_le := by
        unfold freqMaxMhz
        omega }, rfl, hcast⟩
  refine ⟨range, hmode.binaryOutput, hmode.ifftOutput, hlo.symm, ?_⟩
  rw [SweepRange.stepCount, hlo, hrange, hhi]
  unfold tuneStep defaultSampleRateHz freqOneMhz
  omega

theorem Settings.IfftPlan.runStarts_perm (hplan : settings.IfftPlan range)
    (ops : FloatOps F) (hband : ∀ mhz ∈ settings.tunings, mhz ≤ freqMaxMhz) :
    ((settings.tunings.map fun mhz =>
      UInt64.ofNat (mhz * freqOneMhz)).flatMap
        (runStarts ops settings)).Perm
      ((List.range (4 * range.stepCount)).map
        (settings.fftSize.quarter * ·)) := by
  obtain ⟨start, hstart⟩ : ∃ start : ℕ → ℕ, start = fun c =>
      settings.fftSize.quarter *
        ((c + 2 * range.stepCount) % (4 * range.stepCount)) := ⟨_, rfl⟩
  have hstep : ∀ s ∈ List.range range.stepCount,
      ([range.lo.toNat + 20 * s, range.lo.toNat + 20 * s + 5].flatMap
        fun mhz => runStarts ops settings
          (UInt64.ofNat (mhz * freqOneMhz))).Perm
        ((run 4 (4 * s)).map start) := by
    intro s hs
    have hmem := Settings.mem_tunings
      (hplan.stepCount.symm ▸ List.mem_range.mp hs)
    rw [hplan.frequencies] at hmem
    have hfirst := hband _ hmem.1
    have hsecond := hband _ hmem.2
    have hlow : range.lo.toNat + 20 * s = range.lo.toNat + 5 * (4 * s) := by
      omega
    have hhigh : range.lo.toNat + 20 * s + 5 =
        range.lo.toNat + 5 * (4 * s + 1) := by omega
    rw [hhigh] at hsecond ⊢
    rw [hlow] at hfirst ⊢
    rw [List.flatMap_cons, List.flatMap_singleton,
      hplan.runStarts_eq ops hfirst, hplan.runStarts_eq ops hsecond, hstart]
    -- the second run of the first block changes places with the first one of
    -- the second block
    exact (List.Perm.swap _ _ _).cons _
  calc ((settings.tunings.map fun mhz =>
        UInt64.ofNat (mhz * freqOneMhz)).flatMap (runStarts ops settings)).Perm
        ((List.range range.stepCount).flatMap fun s =>
          (run 4 (4 * s)).map start) := by
        rw [List.flatMap_map, Settings.tunings, hplan.stepCount,
          hplan.frequencies, List.flatMap_assoc]
        exact List.Perm.flatMap_left _ hstep
    _ = (List.range (4 * range.stepCount)).map start := by
        rw [← List.map_flatMap, flatMap_run_cells]
    _ = ((List.range (4 * range.stepCount)).map fun c =>
          (c + 2 * range.stepCount) % (4 * range.stepCount)).map
            (settings.fftSize.quarter * ·) := by
        rw [List.map_map, hstart]
        rfl
    List.Perm _ ((List.range (4 * range.stepCount)).map
          (settings.fftSize.quarter * ·)) :=
        (map_rotate_perm _ _).map _

end Cells

/-! ## The blocks of a sweep -/

section Blocks

variable {settings : Settings F}

theorem Settings.UnderWay.transformable {before sweep : List Block}
    (hunderWay : settings.UnderWay before sweep) :
    HackRF.Sweep.transformable settings (before ++ sweep) =
      HackRF.Sweep.transformable settings before ++
        sweep.filter Block.inBand := by
  unfold HackRF.Sweep.transformable
  rw [List.dropWhile_append]
  by_cases hbefore : ∃ block ∈ before, block.isStart settings = true
  · have hnonempty : (before.dropWhile fun block =>
        !block.isStart settings).isEmpty = false := by
      rw [Bool.eq_false_iff, ne_eq, List.isEmpty_iff,
        List.dropWhile_eq_nil_iff]
      intro hnone
      obtain ⟨block, hblock, hstart⟩ := hbefore
      simpa [hstart] using hnone block hblock
    rw [hnonempty, if_neg (by simp), List.filter_append]
  · obtain ⟨start, hfind, hstart⟩ := hunderWay.resolve_left hbefore
    have hnone : (before.dropWhile fun block =>
        !block.isStart settings) = [] := by
      rw [List.dropWhile_eq_nil_iff]
      intro block hblock
      simpa using fun h => hbefore ⟨block, hblock, h⟩
    obtain ⟨-, skipped, rest, rfl, hskipped⟩ :=
      List.find?_eq_some_iff_append.mp hfind
    -- the blocks skipped have no marker, so that nothing hangs on them
    have hunmarked : ∀ block ∈ skipped, hasMarker block.bytes = false := by
      simpa using hskipped
    have hdrop : (skipped ++ start :: rest).dropWhile
        (fun block => !block.isStart settings) = start :: rest := by
      rw [List.dropWhile_append_of_pos]
      · simp [hstart]
      · intro block hblock
        simp [Block.isStart, hunmarked block hblock]
    have hfilter : skipped.filter Block.inBand = [] := by
      rw [List.filter_eq_nil_iff]
      intro block hblock
      simp [Block.inBand, hunmarked block hblock]
    rw [hnone, hdrop, List.filter_append, hfilter]
    rfl

theorem Settings.IsSweep.filter_inBand {sweep : List Block}
    (hsweep : settings.IsSweep sweep)
    (hband : ∀ mhz ∈ settings.tunings, mhz ≤ freqMaxMhz) :
    sweep.filter Block.inBand =
      sweep.filter fun block => hasMarker block.bytes := by
  apply List.filter_congr
  intro block hblock
  cases hmarker : hasMarker block.bytes with
  | false => simp [Block.inBand, hmarker]
  | true =>
      have hmem : block.frequency ∈ settings.tunings.map fun mhz =>
          UInt64.ofNat (mhz * freqOneMhz) :=
        hsweep.mem_iff.mp (List.mem_map_of_mem
          (List.mem_filter.mpr ⟨hblock, hmarker⟩))
      obtain ⟨mhz, hmhz, hfrequency⟩ := List.mem_map.mp hmem
      have hle := hband mhz hmhz
      have hlow : block.frequency ≤ maxFrequency := by
        rw [← hfrequency, ofNat_mhz_le_maxFrequency_iff
          (hle.trans_lt (by decide))]
        exact hle
      simp [Block.inBand, hmarker, hlow]

/-- The runs of the blocks transformed before a cut are written first, in
order. -/
theorem exists_ifftWritten_later (ops : FloatOps F) (zero : F)
    {range : SweepRange} (hfd : settings.fd = true)
    (hplan : settings.IfftPlan range) {calls : List (Transfer × Timeval)}
    {blocks rest : List Block} (hstream : stream calls = blocks ++ rest)
    (hexit : (blocks.foldl (Progress.step settings)
      (State.initial zero).progress).doExit = false) :
    ∃ later,
      ((State.initial zero).rxCallbacks ops settings calls).ifftWritten =
        (transformable settings blocks).flatMap
          (fun block => ifftIndices ops settings block.frequency) ++
            later := by
  obtain ⟨later, hlater⟩ :=
    Progress.foldl_transformed_prefix hstream hexit
  refine ⟨later.flatMap fun entry => ifftIndices ops settings entry.frequency,
    ?_⟩
  have hsource := Progress.foldl_source hexit rfl
  have hbefore := congrArg (List.flatMap fun source =>
    ifftIndices ops settings source.1) hsource
  rw [(rxCallbacks_ifftWritten hfd hplan ops zero calls).1, ← hlater,
    List.flatMap_append]
  congr 1
  rw [List.flatMap_map, List.flatMap_append, List.flatMap_map,
    List.flatMap_map] at hbefore
  exact hbefore

/-- In a run of `rx_callback` in `ifft_output` mode whose blocks, from some
point on, are those of one sweep, in any order and none of them above
7250 MHz, the runs of the sweep tile the buffer. -/
theorem sweep_tiles (ops : FloatOps F) (settings : Settings F) (zero : F)
    (hfd : settings.fd = true) (hmode : settings.IfftMode)
    (hsteps : 1 ≤ settings.stepCount)
    (hband : ∀ mhz ∈ settings.tunings, mhz ≤ freqMaxMhz)
    (calls : List (Transfer × Timeval)) (before sweep after : List Block)
    (hstream : stream calls = before ++ sweep ++ after)
    (hsweep : settings.IsSweep sweep)
    (hunderWay : settings.UnderWay before sweep)
    (hexit : ((before ++ sweep).foldl (Progress.step settings)
      (State.initial zero).progress).doExit = false) :
    Tiles ops settings zero calls before
      ((sweep.filter Block.inBand).flatMap fun block =>
        runStarts ops settings block.frequency) := by
  obtain ⟨range, hplan⟩ := hmode.exists_plan hsteps hband
  have hstarts : ((sweep.filter Block.inBand).flatMap fun block =>
      runStarts ops settings block.frequency).Perm
        ((List.range (4 * range.stepCount)).map
          (settings.fftSize.quarter * ·)) := by
    have hmap := hsweep.flatMap_right (runStarts ops settings)
    rw [List.flatMap_map, ← hsweep.filter_inBand hband] at hmap
    exact hmap.trans (hplan.runStarts_perm ops hband)
  constructor
  · rw [hstarts.length_eq, List.length_map, List.length_range,
      hplan.stepCount]
  · obtain ⟨later, hwritten⟩ :=
      exists_ifftWritten_later ops zero hfd hplan hstream hexit
    refine ⟨later, ?_⟩
    rw [hwritten, hunderWay.transformable, List.flatMap_append,
      List.flatMap_assoc]
    simp only [ifftIndices_eq]
  · have htile := flatMap_run_perm hstarts
    rwa [← hplan.ifftBins_eq] at htile

end Blocks

/-! ## One step -/

def Settings.ifftFrom (lo : UInt16) : Settings Unit where
  fd := true
  numSamples := 8192
  numSweeps := 0
  frequencies := fun i => if i = 0 then lo else lo + 20
  stepCount := 1
  fftSize := ⟨12, by decide, by decide, by decide⟩
  binaryOutput := false
  ifftOutput := true
  oneShot := false
  finiteMode := false
  window := fun _ => ()

/-- A transfer whose first two blocks have these frequencies, given by their
low bytes. -/
def Transfer.ofHeaders (first second : List UInt8) : Transfer where
  buffer := fun i =>
    if i < bytesPerBlock then ([0x7F, 0x7F] ++ first).getD i 0
    else if i < 2 * bytesPerBlock then
      ([0x7F, 0x7F] ++ second).getD (i - bytesPerBlock) 0
    else 0
  validLength := 262144

theorem sweep_tiles_oneStep :
    let calls := [(Transfer.ofHeaders [] [0x40, 0x4B, 0x4C], ⟨0, 0⟩)]
    Tiles (.forgetful .wrapping) (.ifftFrom 0) () calls []
      (((stream calls).filter Block.inBand).flatMap fun block =>
        runStarts (.forgetful .wrapping) (.ifftFrom 0) block.frequency) := by
  intro calls
  refine sweep_tiles (.forgetful .wrapping) (.ifftFrom 0) () rfl ⟨rfl, rfl⟩
    (by decide) (by decide) calls [] (stream calls) [] ?_ ?_ ?_ ?_
  · rw [List.nil_append, List.append_nil]
  · unfold Settings.IsSweep
    decide
  · exact .inr ⟨_, rfl, by decide⟩
  · decide

/-- The sweep from 7249 MHz has a block at 7254 MHz, which is skipped, so that
only half of the buffer is written. -/
theorem sweep_tiles_fails_highest :
    let settings : Settings Unit := .ifftFrom 7249
    let calls := [(Transfer.ofHeaders [0x40, 0xF6, 0x12, 0xB0, 0x01]
      [0x80, 0x41, 0x5F, 0xB0, 0x01], ⟨0, 0⟩)]
    settings.IsSweep (stream calls) ∧
      settings.UnderWay [] (stream calls) ∧
      ((stream calls).foldl (Progress.step settings)
        (State.initial ()).progress).doExit = false ∧
      ¬ ((State.initial ()).rxCallbacks (.forgetful .wrapping) settings
        calls).ifftWritten.Perm
          (List.range (settings.fftSize.size * settings.stepCount)) := by
  intro settings calls
  refine ⟨?_, .inr ⟨_, rfl, by decide⟩, by decide, fun hperm => ?_⟩
  · unfold Settings.IsSweep
    decide
  · have hplan : settings.IfftPlan ⟨7249, 7250, by decide, by decide⟩ :=
      ⟨rfl, rfl, rfl, by decide⟩
    have hlength := hperm.length_eq
    rw [(rxCallbacks_ifftWritten rfl hplan (.forgetful .wrapping) ()
      calls).1, List.length_flatMap] at hlength
    simp only [ifftIndices, List.length_append, List.length_map,
      List.length_range] at hlength
    exact absurd hlength (by decide)

end HackRF.Sweep
