import HackRF.SweepBound

/-!
# The timestamp of a sweep

A block which starts a sweep is stamped with the time of its transfer, advanced
by the tunings before it.  The samples of a tuning and the throwaway blocks are
added in 32 bits, before the cast to 64, so the advance is short for the two
largest accepted sample counts.
-/

namespace HackRF.Sweep

variable {F : Type*}

namespace Timeval

def Normalised (time : Timeval) : Prop :=
  0 ≤ time.tvUsec ∧ time.tvUsec < 1000000

def micros (time : Timeval) : ℤ := time.tvSec * 1000000 + time.tvUsec

end Timeval

/-- The whole microseconds which `j` tunings take at 20 million samples a
second. -/
def tuningMicros (numSamples j : ℕ) : ℕ :=
  (numSamples + throwawayBlocks * samplesPerBlock) * j / 20

namespace Settings

variable (settings : Settings F)

/-- The timestamp of a sweep started by block `j` of a transfer. -/
def StampExact (time : Timeval) (j : ℕ) (stamp : Timeval) : Prop :=
  stamp.Normalised ∧
    stamp.micros = time.micros + tuningMicros settings.numSamples.toNat j

/-- What `blockTimeStamp` adds to the time of the transfer. -/
def blockAdvance (j : ℕ) : ℕ :=
  (settings.numSamples.toNat + throwawayBlocks * samplesPerBlock) % 2 ^ 32 *
    j / 20

variable {settings}

/-! ## The advance -/

theorem blockAdvance_eq (j : ℕ) :
    (settings.numSamples.toNat + throwawayBlocks * samplesPerBlock) % 2 ^ 32 *
        j * freqOneMhz / defaultSampleRateHz =
      settings.blockAdvance j := by
  have hrate : defaultSampleRateHz = 20 * freqOneMhz := rfl
  rw [hrate, Nat.mul_div_mul_right _ _ (by decide), blockAdvance]

theorem blockAdvance_lt {j : ℕ} (hj : j < blocksPerTransfer) :
    settings.blockAdvance j < 2 ^ 32 := by
  unfold blocksPerTransfer at hj
  have hsum := Nat.mod_lt
    (settings.numSamples.toNat + throwawayBlocks * samplesPerBlock)
    (show 0 < 2 ^ 32 by decide)
  unfold blockAdvance
  rw [Nat.div_lt_iff_lt_mul (by decide)]
  calc
    _ ≤ 2 ^ 32 * j := Nat.mul_le_mul_right j hsum.le
    _ < 2 ^ 32 * 20 := Nat.mul_lt_mul_of_pos_left (by omega) (by decide)

/-- The 64-bit arithmetic of the source does not overflow: only the sum in 32
bits does. -/
theorem blockAdvance_toNat {usec : ℕ} (husec : usec < 1000000) {j : ℕ}
    (hj : j < blocksPerTransfer) :
    (UInt64.ofNat usec +
        (settings.numSamples +
            UInt32.ofNat (throwawayBlocks * samplesPerBlock)).toUInt64 *
          UInt64.ofNat j * UInt64.ofNat freqOneMhz /
          UInt64.ofNat defaultSampleRateHz).toNat =
      usec + settings.blockAdvance j := by
  have hadvance := settings.blockAdvance_lt hj
  have hsum := Nat.mod_lt
    (settings.numSamples.toNat + throwawayBlocks * samplesPerBlock)
    (show 0 < 2 ^ 32 by decide)
  have hcast : (settings.numSamples +
        UInt32.ofNat (throwawayBlocks * samplesPerBlock)).toUInt64.toNat =
      (settings.numSamples.toNat + throwawayBlocks * samplesPerBlock) %
        2 ^ 32 := by
    rw [UInt32.toNat_toUInt64, UInt32.toNat_add]
    rfl
  unfold blocksPerTransfer at hj
  have hproduct : (settings.numSamples.toNat +
      throwawayBlocks * samplesPerBlock) % 2 ^ 32 * j < 2 ^ 36 := by
    calc
      _ ≤ 2 ^ 32 * j := Nat.mul_le_mul_right j hsum.le
      _ < 2 ^ 32 * 2 ^ 4 := Nat.mul_lt_mul_of_pos_left hj (by decide)
      _ = 2 ^ 36 := by norm_num
  have hsize : UInt64.size = 2 ^ 64 := rfl
  have hj64 : (UInt64.ofNat j).toNat = j :=
    UInt64.toNat_ofNat_of_lt' (by omega)
  have husec64 : (UInt64.ofNat usec).toNat = usec :=
    UInt64.toNat_ofNat_of_lt' (by omega)
  have hmhz : (UInt64.ofNat freqOneMhz).toNat = freqOneMhz := rfl
  have hrate : (UInt64.ofNat defaultSampleRateHz).toNat =
      defaultSampleRateHz := rfl
  rw [UInt64.toNat_add, UInt64.toNat_div, UInt64.toNat_mul, UInt64.toNat_mul,
    hcast, hj64, husec64, hmhz, hrate,
    Nat.mod_eq_of_lt (a := _ * j) (by omega),
    Nat.mod_eq_of_lt (a := _ * freqOneMhz) (by unfold freqOneMhz; omega),
    blockAdvance_eq, Nat.mod_eq_of_lt (by omega)]

theorem blockTimeStamp_normalised {time : Timeval} (htime : time.Normalised)
    (j : ℕ) : (settings.blockTimeStamp time j).Normalised := by
  obtain ⟨hnonneg, hlt⟩ := htime
  unfold blockTimeStamp
  rw [blockAdvance_eq]
  dsimp only
  split_ifs with hcarry
  · exact ⟨Int.emod_nonneg _ (by decide), Int.emod_lt_of_pos _ (by decide)⟩
  · refine ⟨?_, ?_⟩ <;> dsimp only <;> omega

theorem blockTimeStamp_micros (time : Timeval) (j : ℕ) :
    (settings.blockTimeStamp time j).micros =
      time.micros + settings.blockAdvance j := by
  unfold blockTimeStamp Timeval.micros
  rw [blockAdvance_eq]
  dsimp only
  split_ifs with hcarry
  · dsimp only
    omega
  · dsimp only
    omega

theorem blockAdvance_eq_tuningMicros_iff (j : ℕ) :
    settings.blockAdvance j = tuningMicros settings.numSamples.toNat j ↔
      j = 0 ∨
        settings.numSamples.toNat + throwawayBlocks * samplesPerBlock <
          2 ^ 32 := by
  unfold blockAdvance tuningMicros
  generalize settings.numSamples.toNat + throwawayBlocks * samplesPerBlock =
    samples
  constructor
  · intro hsame
    by_contra hwraps
    obtain ⟨hpos, hlarge⟩ : 0 < j ∧ 2 ^ 32 ≤ samples := by omega
    -- what the wrap loses is more than a rounding
    have hlost : samples % 2 ^ 32 * j + 2 ^ 32 ≤ samples * j := by
      calc
        samples % 2 ^ 32 * j + 2 ^ 32 ≤ samples % 2 ^ 32 * j + 2 ^ 32 * j :=
          Nat.add_le_add_left (Nat.le_mul_of_pos_right _ hpos) _
        _ = (samples % 2 ^ 32 + 2 ^ 32) * j := (Nat.add_mul _ _ _).symm
        _ ≤ samples * j := Nat.mul_le_mul_right j (by omega)
    omega
  · rintro (rfl | hfits)
    · rw [Nat.mul_zero, Nat.mul_zero]
    · rw [Nat.mod_eq_of_lt hfits]

end Settings

namespace State

variable (ops : FloatOps F) (settings : Settings F)

theorem blockStep_timeStamp (state : State F) (block : Block) :
    (state.blockStep ops settings block).timeStamp =
      if block.isStart settings then block.timeStamp settings
      else state.timeStamp := by
  have hstamp := congrArg Progress.timeStamp
    (state.blockStep_progress ops settings block)
  apply hstamp.trans
  have hstep : (state.progress.step settings block).timeStamp =
      (state.progress.enter settings block).timeStamp := by
    unfold Progress.step
    dsimp only
    split_ifs <;> rfl
  rw [hstep]
  unfold Progress.enter
  split_ifs <;> rfl

/-- The timestamp is exact unless the sum in 32 bits wraps, which only the
first block of a transfer does not notice. -/
theorem rxBlock_stampExact_iff (transfer : Transfer) {time : Timeval}
    (htime : time.Normalised) {j : ℕ} (state : State F)
    (hstart : (transfer.block time j).isStart settings = true) :
    settings.StampExact time j
        (state.rxBlock ops settings transfer.buffer time j
          (j * bytesPerBlock)).2.timeStamp ↔
      j = 0 ∨
        settings.numSamples.toNat + throwawayBlocks * samplesPerBlock <
          2 ^ 32 := by
  have hstamp : (state.rxBlock ops settings transfer.buffer time j
        (j * bytesPerBlock)).2.timeStamp =
      settings.blockTimeStamp time j := by
    rw [rxBlock_eq, blockStep_timeStamp, if_pos hstart]
    rfl
  rw [hstamp, ← Settings.blockAdvance_eq_tuningMicros_iff]
  have hnormalised := settings.blockTimeStamp_normalised htime j
  have hmicros := settings.blockTimeStamp_micros time j
  constructor
  · rintro ⟨-, hexact⟩
    omega
  · intro hsame
    refine ⟨hnormalised, ?_⟩
    rw [hmicros, hsame]

/-- The fifth block of a transfer starts a sweep of 8192 samples a tuning:
four tunings take 4915.2 microseconds. -/
theorem rxBlock_stampExact_minimal :
    oneShotSettings.StampExact ⟨1, 999000⟩ 4
        (State.rxBlock (.forgetful .wrapping) oneShotSettings
          startTransfer.buffer ⟨1, 999000⟩ 4 (4 * bytesPerBlock)
          (State.initial ())).2.timeStamp ↔
      4 = 0 ∨
        oneShotSettings.numSamples.toNat + throwawayBlocks * samplesPerBlock <
          2 ^ 32 :=
  rxBlock_stampExact_iff (.forgetful .wrapping) oneShotSettings startTransfer
    ⟨by decide, by decide⟩ (State.initial ()) (by decide)

/-- An accepted number of samples of which a sweep that starts at block 1 is
stamped with the time of the transfer itself. -/
theorem rxBlock_stampExact_fails :
    let settings := { oneShotSettings with numSamples := 4294950912 }
    settings.numSamples.toNat % samplesPerBlock = 0 ∧
      samplesPerBlock ≤ settings.numSamples.toNat ∧
      Timeval.Normalised ⟨0, 0⟩ ∧
      (startTransfer.block ⟨0, 0⟩ 1).isStart settings = true ∧
      ¬ settings.StampExact ⟨0, 0⟩ 1
        (State.rxBlock (.forgetful .wrapping) settings startTransfer.buffer
          ⟨0, 0⟩ 1 (1 * bytesPerBlock) (State.initial ())).2.timeStamp := by
  refine ⟨by decide, by decide, ⟨by decide, by decide⟩, by decide, ?_⟩
  rintro ⟨-, hexact⟩
  exact absurd hexact (by decide)

end State

end HackRF.Sweep
