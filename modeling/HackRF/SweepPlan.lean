import HackRF.FloatRounding

/-!
# What a sweep request turns into

The argument checks of `hackrf_sweep` and the quantities it derives from the
arguments: the rounded FFT size, the number of tuning steps of a range and the
upper end planned for it.  Ranges and sizes which passed the checks are types
of their own.
-/

namespace HackRF.Sweep

/-! ## Constants -/

abbrev freqOneMhz : ℕ := 1000000

abbrev freqMaxMhz : ℕ := 7250

abbrev defaultSampleRateHz : ℕ := 20000000

abbrev tuneStep : ℕ := defaultSampleRateHz / freqOneMhz

abbrev samplesPerBlock : ℕ := 8192

abbrev bytesPerBlock : ℕ := 16384

abbrev blocksPerTransfer : ℕ := 16

abbrev throwawayBlocks : ℕ := 2

/-! ## The FFT size -/

/-- An FFT size as `hackrf_sweep` leaves it: an odd multiple of four between 4
and 8188. -/
structure FftSize where
  size : ℕ
  four_le : 4 ≤ size
  le_max : size ≤ 8188
  odd_multiple : size % 8 = 4
  deriving DecidableEq

/-- The loop `while((fftSize + 4) % 8) fftSize++`. -/
def roundFftSize (fftSize : ℕ) : ℕ :=
  if (fftSize + 4) % 8 = 0 then fftSize else roundFftSize (fftSize + 1)
termination_by 8 * ((fftSize + 11) / 8) - (fftSize + 4)
decreasing_by omega

theorem roundFftSize_eq (fftSize : ℕ) :
    roundFftSize fftSize + 4 = 8 * ((fftSize + 11) / 8) := by
  fun_induction roundFftSize fftSize with
  | case1 fftSize hround => omega
  | case2 fftSize hround ih => omega

/-- The checks of `hackrf_sweep` on `fftSize`, and its rounding. -/
def acceptFftSize (fftSize : ℕ) : Option FftSize :=
  if hmin : fftSize < 4 then none
  else if hmax : 8184 < fftSize then none
  else some {
    size := roundFftSize fftSize
    four_le := by have := roundFftSize_eq fftSize; omega
    le_max := by have := roundFftSize_eq fftSize; omega
    odd_multiple := by have := roundFftSize_eq fftSize; omega }

theorem acceptFftSize_eq {fftSize : ℕ} (hmin : 4 ≤ fftSize)
    (hmax : fftSize ≤ 8184) :
    ∃ rounded, acceptFftSize fftSize = some rounded ∧
      rounded.size = roundFftSize fftSize := by
  unfold acceptFftSize
  rw [dif_neg (by omega), dif_neg (by omega)]
  exact ⟨_, rfl, rfl⟩

namespace FftSize

variable (fftSize : FftSize)

def quarter : ℕ := fftSize.size / 4

theorem size_eq : fftSize.size = 4 * fftSize.quarter := by
  have := fftSize.odd_multiple
  unfold quarter
  omega

theorem quarter_odd : fftSize.quarter % 2 = 1 := by
  have := fftSize.odd_multiple
  unfold quarter
  omega

theorem quarter_pos : 0 < fftSize.quarter := by
  have := fftSize.quarter_odd
  omega

theorem quarter_le : fftSize.quarter ≤ 2047 := by
  have := fftSize.le_max
  unfold quarter
  omega

def binWidth : ℚ := FloatRounding.fl 53 (defaultSampleRateHz / fftSize.size)

end FftSize

/-! ## Frequency ranges -/

/-- A requested range, in MHz, as stored in `frequencies`. -/
structure SweepRange where
  lo : UInt16
  hi : UInt16
  lo_lt_hi : lo < hi
  hi_le : hi.toNat ≤ freqMaxMhz

/-- The checks of `hackrf_sweep` on `freq_min` and `freq_max`. -/
def acceptRange (freqMin freqMax : UInt32) : Option SweepRange :=
  if hlt : freqMax ≤ freqMin then none
  else if hmax : freqMaxMhz < freqMax.toNat then none
  else some {
    lo := freqMin.toUInt16
    hi := freqMax.toUInt16
    lo_lt_hi := by
      rw [UInt32.not_le, UInt32.lt_iff_toNat_lt] at hlt
      rw [UInt16.lt_iff_toNat_lt, UInt32.toNat_toUInt16, UInt32.toNat_toUInt16]
      unfold freqMaxMhz at hmax
      omega
    hi_le := by
      rw [UInt32.toNat_toUInt16]
      unfold freqMaxMhz at *
      omega }

namespace SweepRange

variable (range : SweepRange)

def stepCount : ℕ := 1 + (range.hi.toNat - range.lo.toNat - 1) / tuneStep

/-- The upper end which the planning loop stores. -/
def plannedHi : UInt16 :=
  UInt16.ofNat (range.lo.toNat + range.stepCount * tuneStep)

theorem lo_lt : range.lo.toNat < range.hi.toNat :=
  UInt16.lt_iff_toNat_lt.mp range.lo_lt_hi

theorem stepCount_pos : 0 < range.stepCount := by
  unfold stepCount
  exact Nat.add_pos_left Nat.one_pos _

theorem stepCount_bounds :
    range.lo.toNat + (range.stepCount - 1) * 20 < range.hi.toNat ∧
      range.hi.toNat ≤ range.lo.toNat + range.stepCount * 20 := by
  have hlt := range.lo_lt
  unfold stepCount tuneStep defaultSampleRateHz freqOneMhz
  omega

theorem plannedHi_toNat :
    range.plannedHi.toNat = range.lo.toNat + range.stepCount * 20 := by
  have hbounds := range.stepCount_bounds
  have hpos := range.stepCount_pos
  have hmax := range.hi_le
  rw [plannedHi, UInt16.toNat_ofNat']
  unfold tuneStep defaultSampleRateHz freqOneMhz freqMaxMhz at *
  omega

end SweepRange

end HackRF.Sweep
