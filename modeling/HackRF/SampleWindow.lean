import HackRF.LoopRun
import HackRF.SweepProgress

/-!
# Where the samples of a block lie

The samples which `rx_callback` transforms are placed from the end of a block
and the header is read from its start.  The upper limit on `fftSize` keeps the
two apart before the size is rounded up, but not always afterwards.
-/

namespace HackRF.Sweep

variable {F : Type*}

/-- The marker and the frequency. -/
abbrev headerBytes : ℕ := 10

/-- One test of the loop `while((fftSize + 4) % 8) fftSize++`. -/
def roundFftSizeStep (fftSize : ℕ) : ℕ ⊕ ℕ :=
  if (fftSize + 4) % 8 = 0 then .inr fftSize else .inl (fftSize + 1)

/-- The offsets in a block of its last `2 * size` bytes. -/
def sampleOffsets (size : ℕ) : List ℕ :=
  List.range' (bytesPerBlock - size * 2) (size * 2)

def Transformed.bytesRead (entry : Transformed) : List UInt8 :=
  entry.samples.flatMap fun sample => [sample.1, sample.2]

def Block.window (size : ℕ) (block : Block) : List UInt8 :=
  (sampleOffsets size).map block.bytes

/-! ## The blocks which a run processes -/

/-- The processed ones among the blocks of one transfer, up to the block at
which the callback returns. -/
def Progress.processedBlocks (settings : Settings F) (progress : Progress) :
    List Block → List Block
  | [] => []
  | block :: rest =>
      let later :=
        if hasMarker block.bytes && (progress.enter settings block).doExit then
          []
        else (progress.step settings block).processedBlocks settings rest
      if progress.Processes settings block then block :: later else later

def Progress.processedCalls (settings : Settings F) (progress : Progress) :
    List (Transfer × Timeval) → List Block
  | [] => []
  | call :: rest =>
      let blocks := call.1.blocksFrom call.2 0 blocksPerTransfer
      progress.processedBlocks settings blocks ++
        (progress.runBlocks settings blocks).processedCalls settings rest

/-- The blocks which a run of the callback processes. -/
def State.processed (settings : Settings F) (state : State F)
    (calls : List (Transfer × Timeval)) : List Block :=
  if settings.fd then state.progress.processedCalls settings calls else []

/-- An FFT size is rounded up to the least odd multiple of four.  The samples
of each block which any run of the callback processes are read from its
window, an iteration of the block loop fills the input of the transform from
there, and the window is clear of the header. -/
structure RoundsClear (ops : FloatOps F) (fftSize : ℕ) (rounded : FftSize) :
    Prop where
  ends : LoopRun.Returns roundFftSizeStep fftSize rounded.size
  le : fftSize ≤ rounded.size
  least : ∀ size, fftSize ≤ size → size % 8 = 4 → rounded.size ≤ size
  reads : ∀ settings : Settings F, settings.fftSize = rounded →
    ∀ (state : State F) (calls : List (Transfer × Timeval)),
      (state.processed settings calls).Sublist (stream calls) ∧
        (state.rxCallbacks ops settings calls).transformed.map
            Transformed.bytesRead =
          state.transformed.map Transformed.bytesRead ++
            (state.processed settings calls).map (Block.window rounded.size)
  fills : ∀ settings : Settings F, settings.fftSize = rounded →
    ∀ (state : State F) (transfer : Transfer) (time : Timeval) (j : ℕ),
      let block := transfer.block time j
      let next := (state.rxBlock ops settings transfer.buffer time j
        (j * bytesPerBlock)).2
      let start := bytesPerBlock - rounded.size * 2
      if state.progress.Processes settings block then
        ∀ i < rounded.size, next.fftwIn i =
          (ops.windowed (block.bytes (start + i * 2)).toInt8
              (settings.window i),
            ops.windowed (block.bytes (start + (i * 2 + 1))).toInt8
              (settings.window i))
      else next.fftwIn = state.fftwIn
  clear : ∀ offset ∈ sampleOffsets rounded.size, headerBytes ≤ offset

/-- A size that passes the checks is rounded to one that keeps clear. -/
def KeepsClear (ops : FloatOps F) (fftSize : ℕ) : Prop :=
  ∃ rounded, acceptFftSize fftSize = some rounded ∧
    RoundsClear ops fftSize rounded

/-! ## The rounding loop -/

theorem roundFftSize_returns (fftSize : ℕ) :
    LoopRun.Returns roundFftSizeStep fftSize (roundFftSize fftSize) := by
  fun_induction roundFftSize fftSize with
  | case1 fftSize hround =>
      exact LoopRun.returns_of_inr (if_pos hround)
  | case2 fftSize hround ih =>
      exact ih.of_inl (if_neg hround)

/-! ## The bytes which are read -/

theorem flatMap_pairs (buf : ℕ → UInt8) (size : ℕ) :
    ((List.range size).flatMap fun i => [buf (i * 2), buf (i * 2 + 1)]) =
      (List.range (size * 2)).map buf := by
  induction size with
  | zero => rfl
  | succ size ih =>
      rw [List.range_succ, List.flatMap_append, ih, Nat.succ_mul,
        List.range_succ, List.range_succ]
      simp

theorem bytesRead_entry (settings : Settings F) (timeStamp : Timeval)
    (block : Block) :
    (block.entry settings timeStamp).bytesRead =
      block.window settings.fftSize.size := by
  have hpairs := flatMap_pairs (block.sampleBuf settings)
    settings.fftSize.size
  calc
    (block.entry settings timeStamp).bytesRead =
        (List.range (settings.fftSize.size * 2)).map
          (block.sampleBuf settings) := by
          rw [← hpairs, Transformed.bytesRead, Block.entry, Block.samples,
            List.flatMap_map]
          rfl
    _ = block.window settings.fftSize.size := by
          rw [Block.window, sampleOffsets, List.range'_eq_map_range,
            List.map_map]
          rfl

namespace Progress

variable (settings : Settings F)

theorem step_bytesRead (progress : Progress) (block : Block) :
    (progress.step settings block).transformed.map Transformed.bytesRead =
      progress.transformed.map Transformed.bytesRead ++
        if progress.Processes settings block then
          [block.window settings.fftSize.size]
        else [] := by
  rw [step_transformed_eq]
  split_ifs
  · rw [List.map_append, List.map_singleton, bytesRead_entry]
  · rw [List.append_nil, List.append_nil]

theorem runBlocks_bytesRead (progress : Progress) (met : List Block) :
    (progress.runBlocks settings met).transformed.map Transformed.bytesRead =
      progress.transformed.map Transformed.bytesRead ++
        (progress.processedBlocks settings met).map
          (Block.window settings.fftSize.size) := by
  induction met generalizing progress with
  | nil => simp [runBlocks, processedBlocks]
  | cons block rest ih =>
      have hstep := progress.step_bytesRead settings block
      rw [runBlocks, processedBlocks]
      by_cases hexit : hasMarker block.bytes &&
          (progress.enter settings block).doExit
      · rw [if_pos hexit, if_pos hexit, hstep]
        split_ifs <;> rfl
      · rw [if_neg hexit, if_neg hexit, ih, hstep]
        split_ifs <;> simp

theorem runCalls_bytesRead (progress : Progress)
    (calls : List (Transfer × Timeval)) :
    (progress.runCalls settings calls).transformed.map Transformed.bytesRead =
      progress.transformed.map Transformed.bytesRead ++
        (progress.processedCalls settings calls).map
          (Block.window settings.fftSize.size) := by
  induction calls generalizing progress with
  | nil => simp [runCalls, processedCalls]
  | cons call rest ih =>
      rw [runCalls, List.foldl_cons, ← runCalls, ih, runBlocks_bytesRead,
        processedCalls, List.map_append, List.append_assoc]

theorem processedBlocks_sublist (progress : Progress) (met : List Block) :
    (progress.processedBlocks settings met).Sublist met := by
  induction met generalizing progress with
  | nil => exact List.Sublist.refl _
  | cons block rest ih =>
      have hlater := ih (progress.step settings block)
      rw [processedBlocks]
      split_ifs
      · exact (List.nil_sublist rest).cons_cons block
      · exact hlater.cons_cons block
      · exact List.nil_sublist _
      · exact hlater.cons block

theorem processedCalls_sublist (progress : Progress)
    (calls : List (Transfer × Timeval)) :
    (progress.processedCalls settings calls).Sublist (stream calls) := by
  induction calls generalizing progress with
  | nil => exact List.Sublist.refl _
  | cons call rest ih =>
      exact (progress.processedBlocks_sublist settings _).append (ih _)

end Progress

namespace State

theorem processed_sublist (settings : Settings F) (state : State F)
    (calls : List (Transfer × Timeval)) :
    (state.processed settings calls).Sublist (stream calls) := by
  unfold processed
  split_ifs
  · exact state.progress.processedCalls_sublist settings calls
  · exact List.nil_sublist _

/-- Every processed block is read from its window, whatever the state the run
starts in. -/
theorem rxCallbacks_bytesRead (ops : FloatOps F) (settings : Settings F)
    (state : State F) (calls : List (Transfer × Timeval)) :
    (state.rxCallbacks ops settings calls).transformed.map
        Transformed.bytesRead =
      state.transformed.map Transformed.bytesRead ++
        (state.processed settings calls).map
          (Block.window settings.fftSize.size) := by
  cases hfd : settings.fd with
  | true =>
      have hprogress := rxCallbacks_progress ops settings hfd state calls
      have hread := state.progress.runCalls_bytesRead settings calls
      rw [← hprogress] at hread
      rw [processed, if_pos hfd]
      exact hread
  | false =>
      rw [rxCallbacks_of_closed hfd, processed, if_neg (by simp [hfd]),
        List.map_nil, List.append_nil]

/-! ## The input of the transform -/

theorem processBlock_fftwIn (ops : FloatOps F) (settings : Settings F)
    (state : State F) (block : Block) {i : ℕ}
    (hi : i < settings.fftSize.size) :
    (state.processBlock ops settings block).fftwIn i =
      (ops.windowed (block.sampleBuf settings (i * 2)).toInt8
          (settings.window i),
        ops.windowed (block.sampleBuf settings (i * 2 + 1)).toInt8
          (settings.window i)) := by
  have hemit : (state.processBlock ops settings block).fftwIn =
      (state.transformBlock ops settings block.frequency
        (block.sampleBuf settings)).fftwIn := by
    unfold processBlock emitBlock
    split_ifs <;> rfl
  rw [hemit]
  exact if_pos hi

/-- An iteration of the block loop fills the input of the transform from the
window of its block, or leaves it alone. -/
theorem rxBlock_fftwIn (ops : FloatOps F) (settings : Settings F)
    (state : State F) (transfer : Transfer) (time : Timeval) (j : ℕ) :
    let block := transfer.block time j
    let next := (state.rxBlock ops settings transfer.buffer time j
      (j * bytesPerBlock)).2
    if state.progress.Processes settings block then
      ∀ i < settings.fftSize.size, next.fftwIn i =
        (ops.windowed (block.sampleBuf settings (i * 2)).toInt8
            (settings.window i),
          ops.windowed (block.sampleBuf settings (i * 2 + 1)).toInt8
            (settings.window i))
    else next.fftwIn = state.fftwIn := by
  intro block next
  have hnext : next = state.blockStep ops settings block :=
    congrArg Prod.snd (rxBlock_eq ops settings transfer time j state)
  rw [hnext]
  by_cases hprocesses : state.progress.Processes settings block
  · rw [if_pos hprocesses, state.blockStep_of_processes _ _ _ hprocesses]
    intro i hi
    exact processBlock_fftwIn ops settings _ block hi
  · rw [if_neg hprocesses, state.blockStep_eq_enterBlock _ _ _ hprocesses]
    exact (state.enterBlock_arrays ops settings block).2.1

end State

/-- Only the sizes from 8181 on are rounded up to 8188, whose window begins
with the last two bytes of the header. -/
theorem keepsClear_iff (ops : FloatOps F) {fftSize : ℕ} (hmin : 4 ≤ fftSize)
    (hmax : fftSize ≤ 8184) : KeepsClear ops fftSize ↔ fftSize ≤ 8180 := by
  obtain ⟨rounded, haccept, hsize⟩ := acceptFftSize_eq hmin hmax
  have hround := roundFftSize_eq fftSize
  constructor
  · rintro ⟨other, hother, hclear⟩
    obtain rfl := Option.some.inj (haccept.symm.trans hother)
    by_contra hlarge
    have hfirst : bytesPerBlock - rounded.size * 2 ∈
        sampleOffsets rounded.size := by
      rw [sampleOffsets, List.mem_range'_1]
      omega
    have hheader := hclear.clear _ hfirst
    unfold headerBytes bytesPerBlock at hheader
    omega
  · intro hsmall
    refine ⟨rounded, haccept, ?_, by omega, ?_, ?_, ?_, ?_⟩
    · exact hsize ▸ roundFftSize_returns fftSize
    · intro size hle hodd
      omega
    · rintro settings rfl state calls
      exact ⟨state.processed_sublist settings calls,
        state.rxCallbacks_bytesRead ops settings calls⟩
    · rintro settings rfl state transfer time j
      exact state.rxBlock_fftwIn ops settings transfer time j
    · intro offset hoffset
      rw [sampleOffsets, List.mem_range'_1] at hoffset
      unfold headerBytes bytesPerBlock at *
      omega

theorem keepsClear_twenty :
    KeepsClear (FloatOps.forgetful .wrapping) 20 :=
  (keepsClear_iff _ (by decide) (by decide)).mpr (by decide)

/-- The high bytes of the frequency are read as the first sample. -/
theorem keepsClear_fails_large :
    (∃ rounded, acceptFftSize 8181 = some rounded ∧ rounded.size = 8188 ∧
      8 ∈ sampleOffsets rounded.size ∧ 9 ∈ sampleOffsets rounded.size) ∧
    ¬ KeepsClear (FloatOps.forgetful .wrapping) 8181 := by
  obtain ⟨rounded, haccept, hrounded⟩ :=
    acceptFftSize_eq (show 4 ≤ 8181 by decide) (by decide)
  have hsize : rounded.size = 8188 := by
    have hround := roundFftSize_eq 8181
    omega
  have height : 8 ∈ sampleOffsets rounded.size := by
    rw [hsize, sampleOffsets, List.mem_range'_1]
    decide
  constructor
  · refine ⟨rounded, haccept, hsize, height, ?_⟩
    rw [hsize, sampleOffsets, List.mem_range'_1]
    decide
  · rintro ⟨other, hother, hclear⟩
    obtain rfl := Option.some.inj (haccept.symm.trans hother)
    exact absurd (hclear.clear 8 height) (by decide)

end HackRF.Sweep
