import HackRF.RxStream

/-!
# The bounds of the inverse FFT buffer

In `ifft_output` mode a transformed block assigns two runs of `fftSize / 4`
elements of `ifftwIn`.  The start of each run is reduced modulo `ifft_bins`,
but its end is not.  The buffer consists of `4 * step_count` cells of the
length of a run, one for every 5 MHz, so a run ends outside exactly if it
starts inside the last cell and not at its first element.

The start is computed in double arithmetic.  Rounding can move it by one bin,
but never across the first element of a cell, so that the exact offset of the
header frequency decides which runs fit.
-/

namespace HackRF.Sweep

variable {F : Type*}

/-! ## Runs in a buffer of cells -/

/-- A run of the length of a cell fits into a buffer of `n` cells unless it
starts inside the last cell. -/
theorem forall_run_lt_iff {m n idx : ℕ} (hidx : idx < m * n) :
    (∀ i < m, idx + i < m * n) ↔ idx % m = 0 ∨ idx / m + 1 < n := by
  have hm : 0 < m := Nat.pos_of_mul_pos_right (Nat.zero_lt_of_lt hidx)
  have hcell : idx / m < n := Nat.div_lt_of_lt_mul hidx
  have hsplit := Nat.div_add_mod idx m
  have hmod := Nat.mod_lt idx hm
  constructor
  · intro hrun
    by_contra hlast
    rw [not_or, Nat.not_lt] at hlast
    have hn : n = idx / m + 1 := by omega
    have hend := hrun (m - 1) (by omega)
    rw [hn, Nat.mul_add, Nat.mul_one] at hend
    omega
  · rintro (hfirst | hnext) i hi
    · have hfit : m * (idx / m + 1) ≤ m * n := Nat.mul_le_mul_left m hcell
      rw [Nat.mul_add, Nat.mul_one] at hfit
      omega
    · have hfit : m * (idx / m + 1 + 1) ≤ m * n := Nat.mul_le_mul_left m hnext
      rw [Nat.mul_add, Nat.mul_add, Nat.mul_one] at hfit
      omega

theorem rotate_mod (m n idx cells : ℕ) :
    (idx + m * cells) % (m * n) % m = idx % m := by
  rw [Nat.mod_mul_right_mod, Nat.add_mul_mod_self_left]

theorem rotate_div {m : ℕ} (hm : 0 < m) (n idx cells : ℕ) :
    (idx + m * cells) % (m * n) / m = (idx / m + cells) % n := by
  rw [Nat.mod_mul_right_div_self, Nat.add_mul_div_left _ _ hm]

theorem rotate_add_one_lt_iff {n cells : ℕ} (hcells : cells < n) (cell : ℕ) :
    (cell + cells) % n + 1 < n ↔ cell % n + cells + 1 ≠ n := by
  have hmod := Nat.mod_lt cell (Nat.zero_lt_of_lt hcells)
  rw [Nat.add_mod, Nat.mod_eq_of_lt hcells, Nat.add_mod_eq_ite,
    Nat.mod_eq_of_lt hmod, Nat.mod_eq_of_lt hcells]
  split_ifs <;> omega

/-- Numbers on the same side of the first and second elements of cells are in
one cell, and start it together. -/
theorem div_eq_of_thresholds {m p q : ℕ} (hm : 0 < m)
    (hsame : ∀ c ≤ q / m + 1, ∀ e ≤ 1, m * c + e ≤ p ↔ m * c + e ≤ q) :
    p / m = q / m ∧ (p % m = 0 ↔ q % m = 0) := by
  have hq := Nat.div_add_mod q m
  have hp := Nat.div_add_mod p m
  have hqmod := Nat.mod_lt q hm
  have hlow := hsame (q / m) (by omega) 0 (by omega)
  have hhigh := hsame (q / m + 1) le_rfl 0 (by omega)
  have hstart := hsame (q / m) (by omega) 1 le_rfl
  rw [Nat.mul_add, Nat.mul_one] at hhigh
  have hdiv : p / m = q / m := by
    rw [Nat.div_eq_iff hm, Nat.mul_comm]
    omega
  rw [hdiv] at hp
  exact ⟨hdiv, by omega⟩

/-! ## The nearest bin -/

namespace FftSize

variable (fftSize : FftSize)

/-- The bin nearest to an offset in Hz, the upper one of two: a bin is the
`quarter`-th part of 5 MHz. -/
def nearestBin (offset : ℕ) : ℕ :=
  (2 * offset * fftSize.quarter + 5000000) / 10000000

/-- The bin as computed, before the conversion to `uint32_t`. -/
def roundedBin (offset : ℕ) : ℤ :=
  FloatRounding.roundHalfAway (FloatRounding.fl 53
    (FloatRounding.fl 53 offset / fftSize.binWidth))

theorem binWidth_eq :
    fftSize.binWidth = FloatRounding.fl 53 (5000000 / fftSize.quarter) := by
  have hpos : (fftSize.quarter : ℚ) ≠ 0 := by
    exact_mod_cast fftSize.quarter_pos.ne'
  have hsize : (fftSize.size : ℚ) = 4 * fftSize.quarter := by
    exact_mod_cast fftSize.size_eq
  rw [binWidth, hsize]
  congr 1
  field_simp
  norm_num

theorem le_nearestBin_iff (offset t : ℕ) :
    t ≤ fftSize.nearestBin offset ↔
      (t : ℚ) - 1 / 2 ≤ offset / (5000000 / fftSize.quarter) := by
  rw [nearestBin, Nat.le_div_iff_mul_le (by norm_num), div_div_eq_mul_div,
    le_div_iff₀ (by norm_num)]
  constructor
  · intro h
    have hcast : (t : ℚ) * 10000000 ≤
        2 * offset * fftSize.quarter + 5000000 := by exact_mod_cast h
    linarith
  · intro h
    have hcast : (t : ℚ) * 10000000 ≤
        2 * offset * fftSize.quarter + 5000000 := by linarith
    exact_mod_cast hcast

theorem nearestBin_le {offset : ℕ} (hoffset : offset ≤ 7250000000) :
    fftSize.nearestBin offset ≤ 1450 * fftSize.quarter := by
  have hpos := fftSize.quarter_pos
  have hmul : offset * fftSize.quarter ≤ 7250000000 * fftSize.quarter :=
    Nat.mul_le_mul_right _ hoffset
  unfold nearestBin
  rw [Nat.mul_assoc]
  omega

theorem nearestBin_cell (c : ℕ) :
    fftSize.nearestBin (5000000 * c) = fftSize.quarter * c := by
  have hmul : 2 * (5000000 * c) * fftSize.quarter =
      10000000 * (fftSize.quarter * c) := by ring
  unfold nearestBin
  omega

theorem fl_width_of_dvd (hdvd : (fftSize.quarter : ℤ) ∣ 5000000) :
    FloatRounding.fl 53 (5000000 / fftSize.quarter) =
      5000000 / fftSize.quarter := by
  have hmpos : (0 : ℚ) < fftSize.quarter := by
    exact_mod_cast fftSize.quarter_pos
  obtain ⟨width, hwidth⟩ := hdvd
  have hcast : (5000000 : ℚ) / fftSize.quarter = (width : ℤ) := by
    rw [div_eq_iff hmpos.ne', mul_comm]
    exact_mod_cast hwidth
  have hle : |width| ≤ 5000000 :=
    Int.le_of_dvd (by norm_num)
      ((abs_dvd _ _).mpr (Dvd.intro_left _ hwidth.symm))
  rw [hcast]
  exact FloatRounding.fl_intCast 53 (hle.trans_lt (by norm_num))

/-- At the first two elements of a cell the quotient is either far from the
rounding threshold, or on it and exact. -/
theorem threshold_close {offset c e : ℕ} (hoffset : offset ≤ 7250000000)
    (he : e ≤ 1) :
    (FloatRounding.fl 53 (5000000 / fftSize.quarter) =
          5000000 / fftSize.quarter ∧
        (offset : ℚ) / (5000000 / fftSize.quarter) =
          ((fftSize.quarter * c + e : ℕ) : ℚ) - 1 / 2) ∨
      4 * ((offset : ℚ) / (5000000 / fftSize.quarter)) * 2 ^ (-(53 : ℕ) : ℤ) <
        |(offset : ℚ) / (5000000 / fftSize.quarter) -
          (((fftSize.quarter * c + e : ℕ) : ℚ) - 1 / 2)| := by
  have hmle : (fftSize.quarter : ℚ) ≤ 2047 := by
    exact_mod_cast fftSize.quarter_le
  have hole : (offset : ℚ) ≤ 7250000000 := by exact_mod_cast hoffset
  -- the distance in units of the 5000000th part of a bin
  obtain ⟨gap, hgap⟩ : ∃ gap : ℤ, gap =
      fftSize.quarter * ((offset : ℤ) - 5000000 * c) +
        (2500000 - 5000000 * e) := ⟨_, rfl⟩
  have hdist : (offset : ℚ) / (5000000 / fftSize.quarter) -
      (((fftSize.quarter * c + e : ℕ) : ℚ) - 1 / 2) = gap / 5000000 := by
    rw [div_div_eq_mul_div, hgap]
    push_cast
    ring
  rw [hdist]
  by_cases hzero : gap = 0
  · left
    have hdvd : (fftSize.quarter : ℤ) ∣ 5000000 := by
      have hhalf : (fftSize.quarter : ℤ) ∣ 2500000 - 5000000 * e :=
        (Int.dvd_add_right (Int.dvd_mul_right _ _)).mp
          (by rw [← hgap, hzero]; exact Int.dvd_zero _)
      rcases (by omega : e = 0 ∨ e = 1) with rfl | rfl
      · exact (by simpa using hhalf : (fftSize.quarter : ℤ) ∣ 2500000).trans
          (by norm_num)
      · exact (by simpa using hhalf : (fftSize.quarter : ℤ) ∣ 2500000).trans
          (by norm_num)
    refine ⟨fftSize.fl_width_of_dvd hdvd, ?_⟩
    rw [hzero] at hdist
    push_cast at hdist ⊢
    linarith
  · right
    have hone : (1 : ℚ) ≤ |(gap : ℚ)| := by
      exact_mod_cast Int.one_le_abs hzero
    rw [div_div_eq_mul_div, abs_div, abs_of_pos (show (0 : ℚ) < 5000000 by norm_num)]
    have hnum : (offset : ℚ) * fftSize.quarter ≤ 7250000000 * 2047 := by
      gcongr
    calc 4 * ((offset : ℚ) * fftSize.quarter / 5000000) *
          2 ^ (-(53 : ℕ) : ℤ)
        ≤ 4 * (7250000000 * 2047 / 5000000) * 2 ^ (-(53 : ℕ) : ℤ) := by
          gcongr
      _ < 1 / 5000000 := by norm_num
      _ ≤ |(gap : ℚ)| / 5000000 := by gcongr

theorem fl_offset {offset : ℕ} (hoffset : offset ≤ 7250000000) :
    FloatRounding.fl 53 offset = offset := by
  have hsmall : |(offset : ℤ)| < 2 ^ 53 := by
    rw [Nat.abs_cast]
    omega
  exact_mod_cast FloatRounding.fl_intCast 53 hsmall

/-- The computed bin and the exact one are on the same side of the first two
elements of every cell. -/
theorem le_roundedBin_iff {offset c e : ℕ} (hoffset : offset ≤ 7250000000)
    (hc : c ≤ 1451) (he : e ≤ 1) :
    ((fftSize.quarter * c + e : ℕ) : ℤ) ≤ fftSize.roundedBin offset ↔
      fftSize.quarter * c + e ≤ fftSize.nearestBin offset := by
  have hmpos : (0 : ℚ) < fftSize.quarter := by
    exact_mod_cast fftSize.quarter_pos
  have hmle := fftSize.quarter_le
  have hwidth : 0 ≤ FloatRounding.fl 53 (5000000 / fftSize.quarter) :=
    FloatRounding.fl_nonneg 53 (by norm_num) (by positivity)
  have hnonneg : 0 ≤ FloatRounding.fl 53
      ((offset : ℚ) / FloatRounding.fl 53 (5000000 / fftSize.quarter)) :=
    FloatRounding.fl_nonneg 53 (by norm_num) (by positivity)
  -- the rounding threshold is a half-integer, hence representable
  have hthreshold : FloatRounding.fl 53
      (((fftSize.quarter * c + e : ℕ) : ℚ) - 1 / 2) =
        ((fftSize.quarter * c + e : ℕ) : ℚ) - 1 / 2 := by
    have hmul : fftSize.quarter * c ≤ 2047 * 1451 := Nat.mul_le_mul hmle hc
    have hhalf := FloatRounding.fl_halfInteger 53
      (n := 2 * ((fftSize.quarter * c + e : ℕ) : ℤ) - 1)
      (abs_lt.mpr ⟨by omega, by omega⟩)
    have hcast : ((2 * ((fftSize.quarter * c + e : ℕ) : ℤ) - 1 : ℤ) : ℚ) / 2 =
        ((fftSize.quarter * c + e : ℕ) : ℚ) - 1 / 2 := by
      push_cast
      ring
    rwa [hcast] at hhalf
  rw [le_nearestBin_iff, roundedBin, fl_offset hoffset, binWidth_eq,
    FloatRounding.le_roundHalfAway_iff hnonneg, Int.cast_natCast]
  exact FloatRounding.le_fl_div_fl_iff 53 (by norm_num) (by positivity)
    (by positivity) hthreshold (fftSize.threshold_close hoffset he)

/-- The conversion to `uint32_t` is defined, and the computed bin lies in the
cell of the exact one. -/
theorem toUint32_roundedBin {offset : ℕ} (hoffset : offset ≤ 7250000000)
    (conv : Uint32Conversion) :
    let bin := conv.toFun (fftSize.roundedBin offset)
    bin < 2 ^ 31 ∧
      bin / fftSize.quarter = fftSize.nearestBin offset / fftSize.quarter ∧
      (bin % fftSize.quarter = 0 ↔
        fftSize.nearestBin offset % fftSize.quarter = 0) := by
  have hpos := fftSize.quarter_pos
  have hmle := fftSize.quarter_le
  have hnearest := fftSize.nearestBin_le hoffset
  have hcell : fftSize.nearestBin offset / fftSize.quarter ≤ 1450 := by
    rw [Nat.mul_comm] at hnearest
    exact Nat.div_le_of_le_mul hnearest
  have hnonneg : 0 ≤ fftSize.roundedBin offset := by
    have hzero := (fftSize.le_roundedBin_iff (c := 0) (e := 0) hoffset
      (by norm_num) (by norm_num)).mpr (Nat.zero_le _)
    simpa using hzero
  obtain ⟨bin, hbin⟩ : ∃ bin : ℕ, fftSize.roundedBin offset = bin :=
    ⟨_, (Int.toNat_of_nonneg hnonneg).symm⟩
  have hsame := div_eq_of_thresholds (p := bin)
    (q := fftSize.nearestBin offset) hpos fun c hc e he => by
      have h := fftSize.le_roundedBin_iff (c := c) hoffset (by omega) he
      rw [hbin] at h
      exact_mod_cast h
  have hlt : bin < 2 ^ 31 := by
    have hsplit := Nat.lt_mul_div_succ bin hpos
    have hmul : fftSize.quarter *
        (fftSize.nearestBin offset / fftSize.quarter + 1) ≤ 2047 * 1451 :=
      Nat.mul_le_mul hmle (by omega)
    rw [hsame.1] at hsplit
    omega
  have hconv : conv.toFun (fftSize.roundedBin offset) = bin := by
    have hfits : (bin : ℚ) < 2 ^ 32 := by
      exact_mod_cast hlt.trans (by norm_num)
    rw [hbin, Int.cast_natCast, conv.truncates _ (by positivity) hfits,
      Nat.floor_natCast]
  rw [hconv]
  exact ⟨hlt, hsame⟩

end FftSize

/-! ## The runs of one block -/

/-- What `hackrf_sweep` leaves in the globals for a single range in
`ifft_output` mode. -/
structure Settings.IfftPlan (settings : Settings F) (range : SweepRange) :
    Prop where
  binaryOutput : settings.binaryOutput = false
  ifftOutput : settings.ifftOutput = true
  frequencies : settings.frequencies 0 = range.lo
  stepCount : settings.stepCount = range.stepCount

def ifftIndices (ops : FloatOps F) (settings : Settings F)
    (frequency : UInt64) : List ℕ :=
  let first := State.ifftIndex ops settings frequency
  let second := State.ifftNextIndex settings first
  (List.range settings.fftSize.quarter).map (first + ·) ++
    (List.range settings.fftSize.quarter).map (second + ·)

/-- The runs for this frequency fit: the nearest bin is the first one of its
5 MHz cell, or neither this cell nor the second next is the one which is
rotated to the end. -/
def RunsFit (range : SweepRange) (fftSize : FftSize) (frequency : UInt64) :
    Prop :=
  let start := range.lo.toNat * freqOneMhz
  let bin := fftSize.nearestBin (frequency.toNat - start)
  let cell := bin / fftSize.quarter
  fftSize.quarter = 1 ∨
    start ≤ frequency.toNat ∧
      (bin % fftSize.quarter = 0 ∨
        cell % (4 * range.stepCount) + 1 ≠ 2 * range.stepCount ∧
          (cell + 2) % (4 * range.stepCount) + 1 ≠ 2 * range.stepCount)

instance (range : SweepRange) (fftSize : FftSize) (frequency : UInt64) :
    Decidable (RunsFit range fftSize frequency) :=
  inferInstanceAs (Decidable (_ ∨ _))

section Runs

variable {range : SweepRange} {settings : Settings F}

theorem mem_ifftIndices {ops : FloatOps F} {frequency : UInt64} {idx : ℕ} :
    idx ∈ ifftIndices ops settings frequency ↔
      ∃ i < settings.fftSize.quarter,
        idx = State.ifftIndex ops settings frequency + i ∨
          idx = State.ifftNextIndex settings
            (State.ifftIndex ops settings frequency) + i := by
  simp only [ifftIndices, List.mem_append, List.mem_map, List.mem_range]
  constructor
  · rintro (⟨i, hi, rfl⟩ | ⟨i, hi, rfl⟩)
    · exact ⟨i, hi, .inl rfl⟩
    · exact ⟨i, hi, .inr rfl⟩
  · rintro ⟨i, hi, rfl | rfl⟩
    · exact .inl ⟨i, hi, rfl⟩
    · exact .inr ⟨i, hi, rfl⟩

theorem Settings.IfftPlan.ifftBins_eq (hplan : settings.IfftPlan range) :
    settings.ifftBins = settings.fftSize.quarter * (4 * range.stepCount) := by
  rw [Settings.ifftBins, hplan.stepCount, settings.fftSize.size_eq]
  ring

theorem SweepRange.stepCount_le (range : SweepRange) :
    range.stepCount ≤ 363 := by
  have hbounds := range.stepCount_bounds
  have hmax := range.hi_le
  unfold freqMaxMhz at hmax
  omega

theorem Settings.IfftPlan.ifftBins_bounds (hplan : settings.IfftPlan range) :
    0 < settings.ifftBins ∧ settings.ifftBins ≤ 2047 * 1452 := by
  have hsteps := range.stepCount_pos
  rw [hplan.ifftBins_eq]
  exact ⟨Nat.mul_pos settings.fftSize.quarter_pos (by omega),
    Nat.mul_le_mul settings.fftSize.quarter_le
      (by have := range.stepCount_le; omega)⟩

theorem Settings.IfftPlan.rotated_eq (hplan : settings.IfftPlan range)
    {bin : ℕ} (hbin : bin < 2 ^ 31) :
    (bin + settings.ifftBins / 2) % 2 ^ 32 % settings.ifftBins =
      (bin + settings.fftSize.quarter * (2 * range.stepCount)) %
        (settings.fftSize.quarter * (4 * range.stepCount)) := by
  have hbounds := hplan.ifftBins_bounds
  have hhalf : settings.ifftBins / 2 =
      settings.fftSize.quarter * (2 * range.stepCount) := by
    rw [hplan.ifftBins_eq]
    exact Nat.div_eq_of_eq_mul_right (by norm_num) (by ring)
  have hsmall : (bin + settings.ifftBins / 2) % 2 ^ 32 =
      bin + settings.ifftBins / 2 := Nat.mod_eq_of_lt (by omega)
  rw [hsmall, hhalf, hplan.ifftBins_eq]

theorem Settings.IfftPlan.ifftNextIndex_eq (hplan : settings.IfftPlan range)
    {idx : ℕ} (hidx : idx < settings.ifftBins) :
    State.ifftNextIndex settings idx =
      (idx + settings.fftSize.quarter * 2) %
        (settings.fftSize.quarter * (4 * range.stepCount)) := by
  have hbounds := hplan.ifftBins_bounds
  have hmax := settings.fftSize.quarter_le
  have hsize := settings.fftSize.size_eq
  have hhalf : settings.fftSize.size / 2 = settings.fftSize.quarter * 2 := by
    omega
  have hsmall : (idx + settings.fftSize.size / 2) % 2 ^ 32 =
      idx + settings.fftSize.size / 2 := Nat.mod_eq_of_lt (by omega)
  rw [State.ifftNextIndex, hsmall, hhalf, hplan.ifftBins_eq]

theorem Settings.IfftPlan.forall_lt_iff_of_bin (hplan : settings.IfftPlan range)
    {ops : FloatOps F} {frequency : UInt64} {bin : ℕ} (hbin : bin < 2 ^ 31)
    (hindex : State.ifftIndex ops settings frequency =
      (bin + settings.ifftBins / 2) % 2 ^ 32 % settings.ifftBins) :
    (∀ idx ∈ ifftIndices ops settings frequency, idx < settings.ifftBins) ↔
      bin % settings.fftSize.quarter = 0 ∨
        bin / settings.fftSize.quarter % (4 * range.stepCount) + 1 ≠
            2 * range.stepCount ∧
          (bin / settings.fftSize.quarter + 2) % (4 * range.stepCount) + 1 ≠
            2 * range.stepCount := by
  have hpos := settings.fftSize.quarter_pos
  have hsteps := range.stepCount_pos
  have hbins := hplan.ifftBins_bounds.1
  obtain ⟨first, hfirst⟩ : ∃ first,
      first = State.ifftIndex ops settings frequency := ⟨_, rfl⟩
  have hfirstLt : first < settings.ifftBins := by
    rw [hfirst, hindex]
    exact Nat.mod_lt _ hbins
  have hrotated := hindex.trans (hplan.rotated_eq hbin)
  have hnext := hplan.ifftNextIndex_eq hfirstLt
  have hruns : (∀ idx ∈ ifftIndices ops settings frequency,
      idx < settings.ifftBins) ↔
        (∀ i < settings.fftSize.quarter, first + i < settings.ifftBins) ∧
          ∀ i < settings.fftSize.quarter,
            State.ifftNextIndex settings first + i < settings.ifftBins := by
    simp only [mem_ifftIndices, ← hfirst]
    constructor
    · intro h
      exact ⟨fun i hi => h _ ⟨i, hi, .inl rfl⟩,
        fun i hi => h _ ⟨i, hi, .inr rfl⟩⟩
    · rintro ⟨hone, htwo⟩ idx ⟨i, hi, rfl | rfl⟩
      · exact hone i hi
      · exact htwo i hi
  have hcell : (bin / settings.fftSize.quarter + 2 * range.stepCount) %
      (4 * range.stepCount) + 1 < 4 * range.stepCount ↔
        bin / settings.fftSize.quarter % (4 * range.stepCount) + 1 ≠
          2 * range.stepCount := by
    rw [rotate_add_one_lt_iff (by omega)]
    omega
  have hnextCell : (bin / settings.fftSize.quarter + 2 +
      2 * range.stepCount) % (4 * range.stepCount) + 1 <
        4 * range.stepCount ↔
          (bin / settings.fftSize.quarter + 2) % (4 * range.stepCount) + 1 ≠
            2 * range.stepCount := by
    rw [rotate_add_one_lt_iff (by omega)]
    omega
  have hnextLt : State.ifftNextIndex settings first < settings.ifftBins :=
    Nat.mod_lt _ hbins
  rw [hplan.ifftBins_eq] at hruns hfirstLt hnextLt
  rw [hplan.ifftBins_eq, hruns, forall_run_lt_iff hfirstLt,
    forall_run_lt_iff hnextLt, hnext, rotate_mod, rotate_div hpos, hfirst,
    hrotated, rotate_mod, rotate_div hpos, Nat.mod_add_mod,
    Nat.add_right_comm, hcell, hnextCell, or_and_left]

theorem Settings.IfftPlan.startFrequency_toNat
    (hplan : settings.IfftPlan range) :
    settings.startFrequency.toNat = range.lo.toNat * freqOneMhz := by
  rw [Settings.startFrequency_toNat, hplan.frequencies]

theorem toNat_le_of_inBand {frequency : UInt64}
    (hband : frequency ≤ maxFrequency) : frequency.toNat ≤ 7250000000 :=
  UInt64.le_iff_toNat_le.mp hband

/-- From the start of the range on, the conversion is defined and the runs fit
exactly if the exact bin says so. -/
theorem Settings.IfftPlan.forall_lt_iff (hplan : settings.IfftPlan range)
    (ops : FloatOps F) {frequency : UInt64} (hband : frequency ≤ maxFrequency)
    (hstart : range.lo.toNat * freqOneMhz ≤ frequency.toNat) :
    (∀ idx ∈ ifftIndices ops settings frequency, idx < settings.ifftBins) ↔
      RunsFit range settings.fftSize frequency := by
  have hmax := toNat_le_of_inBand hband
  have hstartNat := hplan.startFrequency_toNat
  have hoffset : (frequency - settings.startFrequency).toNat =
      frequency.toNat - range.lo.toNat * freqOneMhz := by
    rw [UInt64.toNat_sub_of_le _ _ (UInt64.le_iff_toNat_le.mpr (by omega)),
      hstartNat]
  have hmaxOffset :
      (frequency - settings.startFrequency).toNat ≤ 7250000000 := by omega
  obtain ⟨hbin, hcell, hfirst⟩ :=
    settings.fftSize.toUint32_roundedBin hmaxOffset ops.toUint32
  rw [hplan.forall_lt_iff_of_bin hbin rfl, hcell, hfirst, hoffset, RunsFit]
  constructor
  · exact fun h => .inr ⟨hstart, h⟩
  · rintro (hone | ⟨-, h⟩)
    · exact .inl (by rw [hone, Nat.mod_one])
    · exact h

/-- The difference to a frequency below the start wraps around, and the bin
does not fit 32 bits. -/
theorem FftSize.two_pow_le_roundedBin (fftSize : FftSize) {offset : ℕ}
    (hoffset : 2 ^ 63 ≤ offset) : 2 ^ 32 ≤ fftSize.roundedBin offset := by
  have hmone : (1 : ℚ) ≤ fftSize.quarter := by
    exact_mod_cast fftSize.quarter_pos
  have hoffset' : (2 : ℚ) ^ 63 ≤ offset := by exact_mod_cast hoffset
  have hwidth : 0 < fftSize.binWidth ∧ fftSize.binWidth ≤ 10000000 := by
    have hexact : (0 : ℚ) < 5000000 / fftSize.quarter := by positivity
    have hle : (5000000 : ℚ) / fftSize.quarter ≤ 5000000 :=
      div_le_self (by norm_num) hmone
    have hhigh := FloatRounding.fl_le_mul_one_add 53 hexact.le
    rw [binWidth_eq]
    constructor
    · exact FloatRounding.fl_pos 53 (by norm_num) hexact
    · norm_num at hhigh ⊢
      linarith
  have hnum := FloatRounding.half_le_fl 53 (by norm_num)
    (show (0 : ℚ) ≤ offset by positivity)
  have hquot : (2 : ℚ) ^ 62 / 10000000 ≤
      FloatRounding.fl 53 offset / fftSize.binWidth := by
    exact div_le_div₀ (by linarith) (by linarith) hwidth.1 hwidth.2
  have hfl := FloatRounding.half_le_fl 53 (by norm_num)
    (le_trans (by positivity) hquot)
  have hlarge : (2 : ℚ) ^ 32 ≤ FloatRounding.fl 53
      (FloatRounding.fl 53 offset / fftSize.binWidth) := by
    refine le_trans ?_ hfl
    norm_num at hquot ⊢
    linarith
  rw [roundedBin, FloatRounding.le_roundHalfAway_iff
    (le_trans (by positivity) hlarge)]
  push_cast
  linarith

/-- The conversion which gives some value where it is undefined. -/
def Uint32Conversion.elsewhere (value : ℕ) (hvalue : value < 2 ^ 32) :
    Uint32Conversion where
  toFun := fun x => if 0 ≤ x ∧ x < 2 ^ 32 then ⌊x⌋₊ else value
  lt := fun x => by
    split_ifs with hx
    · rw [Nat.floor_lt hx.1]
      exact_mod_cast hx.2
    · exact hvalue
  truncates := fun x hx hlt => if_pos ⟨hx, hlt⟩

theorem Settings.IfftPlan.exists_not_lt (hplan : settings.IfftPlan range)
    (ops : FloatOps F) {frequency : UInt64} (hone : settings.fftSize.quarter ≠ 1)
    (hlow : frequency.toNat < range.lo.toNat * freqOneMhz) :
    ∃ conv : Uint32Conversion, ¬ ∀ idx ∈ ifftIndices
      { ops with toUint32 := conv } settings frequency,
        idx < settings.ifftBins := by
  have hsteps := range.stepCount_pos
  have hstepsLe := range.stepCount_le
  have hpos := settings.fftSize.quarter_pos
  have hlo := range.lo.toNat_lt
  have hstartNat := hplan.startFrequency_toNat
  have hoffset : 2 ^ 63 ≤ (frequency - settings.startFrequency).toNat := by
    rw [UInt64.toNat_sub]
    unfold freqOneMhz at *
    omega
  -- this bin is rotated to the second element of the last cell
  have hvalueLe : settings.fftSize.quarter * (2 * range.stepCount - 1) ≤
      2047 * 725 := Nat.mul_le_mul settings.fftSize.quarter_le (by omega)
  obtain ⟨value, hvalue⟩ : ∃ value, value =
      settings.fftSize.quarter * (2 * range.stepCount - 1) + 1 := ⟨_, rfl⟩
  have hdiv : value / settings.fftSize.quarter = 2 * range.stepCount - 1 := by
    rw [hvalue, Nat.mul_add_div hpos, Nat.div_eq_of_lt (by omega), Nat.add_zero]
  have hmod : value % settings.fftSize.quarter = 1 := by
    rw [hvalue, Nat.mul_add_mod, Nat.mod_eq_of_lt (by omega)]
  have hlarge : ¬ (0 ≤ (settings.fftSize.roundedBin
        (frequency - settings.startFrequency).toNat : ℚ) ∧
      (settings.fftSize.roundedBin
        (frequency - settings.startFrequency).toNat : ℚ) < 2 ^ 32) := by
    have hle := settings.fftSize.two_pow_le_roundedBin hoffset
    have hcast : (2 : ℚ) ^ 32 ≤ settings.fftSize.roundedBin
        (frequency - settings.startFrequency).toNat := by exact_mod_cast hle
    exact fun h => absurd h.2 (not_lt.mpr hcast)
  refine ⟨.elsewhere value (by omega), ?_⟩
  have hindex : State.ifftIndex
      { ops with toUint32 := .elsewhere value (by omega) } settings frequency =
        (value + settings.ifftBins / 2) % 2 ^ 32 % settings.ifftBins := by
    have hconv : (Uint32Conversion.elsewhere value (by omega)).toFun
        (settings.fftSize.roundedBin
          (frequency - settings.startFrequency).toNat) = value :=
      if_neg hlarge
    conv_rhs => rw [← hconv]
    rfl
  rw [hplan.forall_lt_iff_of_bin (by omega) hindex, hdiv, hmod,
    Nat.mod_eq_of_lt (by omega)]
  omega

theorem Settings.IfftPlan.forall_lt_of_quarter (hplan : settings.IfftPlan range)
    (ops : FloatOps F) (frequency : UInt64)
    (hone : settings.fftSize.quarter = 1) :
    ∀ idx ∈ ifftIndices ops settings frequency, idx < settings.ifftBins := by
  have hbins := hplan.ifftBins_bounds.1
  rintro idx hidx
  obtain ⟨i, hi, rfl | rfl⟩ := mem_ifftIndices.mp hidx
  · rw [show i = 0 by omega]
    exact Nat.mod_lt _ hbins
  · rw [show i = 0 by omega]
    exact Nat.mod_lt _ hbins

theorem Settings.IfftPlan.forall_conv_lt_iff (hplan : settings.IfftPlan range)
    (ops : FloatOps F) {frequency : UInt64}
    (hband : frequency ≤ maxFrequency) :
    (∀ conv : Uint32Conversion, ∀ idx ∈ ifftIndices
        { ops with toUint32 := conv } settings frequency,
          idx < settings.ifftBins) ↔
      RunsFit range settings.fftSize frequency := by
  by_cases hstart : range.lo.toNat * freqOneMhz ≤ frequency.toNat
  · constructor
    · exact fun h => (hplan.forall_lt_iff _ hband hstart).mp (h ops.toUint32)
    · exact fun h conv => (hplan.forall_lt_iff _ hband hstart).mpr h
  · constructor
    · intro h
      by_contra hrun
      have hone : settings.fftSize.quarter ≠ 1 := fun hone => hrun (.inl hone)
      obtain ⟨conv, hconv⟩ := hplan.exists_not_lt ops hone (not_le.mp hstart)
      exact hconv (h conv)
    · rintro (hone | ⟨hle, -⟩)
      · exact fun conv => hplan.forall_lt_of_quarter _ _ hone
      · exact absurd hle hstart

end Runs

/-! ## The writes of a run -/

namespace State

variable (ops : FloatOps F) {settings : Settings F} {state : State F}

/-- The writes are those for the transformed blocks, all of them in band. -/
structure WritesRuns (settings : Settings F) (state : State F) : Prop where
  written : state.ifftWritten = state.transformed.flatMap
    fun entry => ifftIndices ops settings entry.frequency
  inBand : ∀ entry ∈ state.transformed, entry.frequency ≤ maxFrequency

theorem emitIfft_ifftWritten (frequency : UInt64) :
    (state.emitIfft ops settings frequency).ifftWritten =
      state.ifftWritten ++ ifftIndices ops settings frequency := by
  simp [emitIfft, ifftWrites, ifftIndices, Function.comp_def]

theorem enterBlock_writes (settings : Settings F) (block : Block) :
    (state.enterBlock ops settings block).ifftWritten = state.ifftWritten ∧
      (state.enterBlock ops settings block).transformed =
        state.transformed := by
  have hcomplete : ∀ state' : State F,
      (state'.completeSweep settings).ifftWritten = state'.ifftWritten ∧
        (state'.completeSweep settings).transformed = state'.transformed := by
    intro state'
    obtain ⟨count, exit, hframe⟩ := state'.completeSweep_frame settings
    rw [hframe]
    exact ⟨rfl, rfl⟩
  unfold enterBlock startSweep
  dsimp only
  split_ifs
  · exact hcomplete (state.writeIfft ops settings)
  · exact hcomplete state
  · exact ⟨rfl, rfl⟩
  · exact ⟨rfl, rfl⟩

theorem WritesRuns.blockStep {range : SweepRange}
    (hplan : settings.IfftPlan range) (hwrites : state.WritesRuns ops settings)
    (block : Block) :
    (state.blockStep ops settings block).WritesRuns ops settings := by
  obtain ⟨hwritten, htransformed⟩ :=
    state.enterBlock_writes ops settings block
  have hentered : (state.enterBlock ops settings block).WritesRuns ops
      settings := by
    constructor
    · rw [hwritten, htransformed]
      exact hwrites.written
    · rw [htransformed]
      exact hwrites.inBand
  unfold State.blockStep
  generalize state.enterBlock ops settings block = entered at hentered
  dsimp only
  split_ifs with hprocess
  · have hemit : ∀ state' : State F,
        state'.emitBlock ops settings block.frequency =
          state'.emitIfft ops settings block.frequency := by
      simp [emitBlock, hplan.binaryOutput, hplan.ifftOutput]
    have hband := Block.frequency_le_of_inBand hprocess.2.2
    unfold processBlock
    rw [hemit]
    constructor
    · rw [emitIfft_ifftWritten]
      change entered.ifftWritten ++ _ = (entered.transformed ++ _).flatMap _
      rw [hentered.written, List.flatMap_append]
      simp
    · change ∀ entry ∈ entered.transformed ++ [_], _
      simp only [List.mem_append, List.mem_singleton]
      rintro entry (hentry | rfl)
      · exact hentered.inBand entry hentry
      · exact hband
  · exact hentered

theorem WritesRuns.rxCallbacks {range : SweepRange}
    (hplan : settings.IfftPlan range) (hwrites : state.WritesRuns ops settings)
    (calls : List (Transfer × Timeval)) :
    (state.rxCallbacks ops settings calls).WritesRuns ops settings :=
  rxCallbacks_invariant ops settings (WritesRuns ops settings)
    (fun _ block hwrites => hwrites.blockStep ops hplan block)
    (fun _ _ hwrites => ⟨hwrites.written, hwrites.inBand⟩) hwrites calls

end State

section Run

variable {settings : Settings F}

theorem rxCallbacks_ifftWritten {range : SweepRange}
    (hfd : settings.fd = true) (hplan : settings.IfftPlan range)
    (ops : FloatOps F) (zero : F) (calls : List (Transfer × Timeval)) :
    ((State.initial zero).rxCallbacks ops settings calls).ifftWritten =
        ((State.initial zero).progress.runCalls settings
          calls).transformed.flatMap
            (fun entry => ifftIndices ops settings entry.frequency) ∧
      ∀ entry ∈ ((State.initial zero).progress.runCalls settings
        calls).transformed, entry.frequency ≤ maxFrequency := by
  have hinitial : (State.initial zero).WritesRuns ops settings :=
    ⟨rfl, by simp [State.initial]⟩
  obtain ⟨hwritten, hband⟩ := hinitial.rxCallbacks ops hplan calls
  rw [← State.rxCallbacks_progress ops settings hfd]
  exact ⟨hwritten, hband⟩

/-- In a run of `rx_callback` in `ifft_output` mode over any transfers, every
element of `ifftwIn` which is assigned lies in the buffer, whatever an
undefined conversion gives, if and only if the runs of every transformed block
fit according to its header frequency. -/
theorem ifftWritten_lt_iff (ops : FloatOps F) (settings : Settings F) (zero : F)
    (hfd : settings.fd = true) (range : SweepRange)
    (hplan : settings.IfftPlan range) (calls : List (Transfer × Timeval)) :
    (∀ conv : Uint32Conversion, ∀ idx ∈ ((State.initial zero).rxCallbacks
        { ops with toUint32 := conv } settings calls).ifftWritten,
          idx < settings.ifftBins) ↔
      ∀ entry ∈ ((State.initial zero).progress.runCalls settings
        calls).transformed,
          RunsFit range settings.fftSize entry.frequency := by
  have hwritten := fun conv => rxCallbacks_ifftWritten hfd hplan
    { ops with toUint32 := conv } zero calls
  have hband := (hwritten .wrapping).2
  simp only [(hwritten _).1, List.mem_flatMap]
  constructor
  · intro h entry hentry
    rw [← hplan.forall_conv_lt_iff ops (hband entry hentry)]
    exact fun conv idx hidx => h conv idx ⟨entry, hentry, hidx⟩
  · rintro h conv idx ⟨entry, hentry, hidx⟩
    exact (hplan.forall_conv_lt_iff ops (hband entry hentry)).mpr
      (h entry hentry) conv idx hidx

end Run

theorem ifftWritten_lt_oneStep :
    let settings : Settings Unit := {
      fd := true
      numSamples := 8192
      numSweeps := 0
      frequencies := fun i => if i = 1 then 20 else 0
      stepCount := 1
      fftSize := ⟨12, by decide, by decide, by decide⟩
      binaryOutput := false
      ifftOutput := true
      oneShot := false
      finiteMode := false
      window := fun _ => () }
    let header : ℕ → UInt8 := fun i => if i < 2 then 0x7F else 0
    let tunedHeader : ℕ → UInt8 := fun i =>
      [0x7F, 0x7F, 0x40, 0x4B, 0x4C].getD i 0
    let transfer : Transfer := {
      buffer := fun i =>
        if i < bytesPerBlock then header i
        else if i < 2 * bytesPerBlock then tunedHeader (i - bytesPerBlock)
        else 0
      validLength := 262144 }
    ∀ conv : Uint32Conversion, ∀ idx ∈ ((State.initial ()).rxCallbacks
      (.forgetful conv) settings [(transfer, ⟨0, 0⟩)]).ifftWritten,
        idx < settings.ifftBins := by
  intro settings header tunedHeader transfer
  exact (ifftWritten_lt_iff (.forgetful .wrapping) settings () rfl
    ⟨0, 20, by decide, by decide⟩ ⟨rfl, rfl, rfl, by decide⟩
    [(transfer, ⟨0, 0⟩)]).mpr (by decide)

/-- With 12 bins from 0 MHz, a block at 8333333 Hz has the bin 5, which is
rotated to the index 11, so that the elements 12 and 13 are assigned. -/
theorem ifftWritten_outside :
    let settings : Settings Unit := {
      fd := true
      numSamples := 8192
      numSweeps := 0
      frequencies := fun i => if i = 1 then 20 else 0
      stepCount := 1
      fftSize := ⟨12, by decide, by decide, by decide⟩
      binaryOutput := false
      ifftOutput := true
      oneShot := false
      finiteMode := false
      window := fun _ => () }
    let header : ℕ → UInt8 := fun i => if i < 2 then 0x7F else 0
    let offGridHeader : ℕ → UInt8 := fun i =>
      [0x7F, 0x7F, 0x15, 0x28, 0x7F].getD i 0
    let transfer : Transfer := {
      buffer := fun i =>
        if i < bytesPerBlock then header i
        else if i < 2 * bytesPerBlock then offGridHeader (i - bytesPerBlock)
        else 0
      validLength := 262144 }
    ¬ ∀ idx ∈ ((State.initial ()).rxCallbacks (.forgetful .wrapping) settings
      [(transfer, ⟨0, 0⟩)]).ifftWritten, idx < settings.ifftBins := by
  intro settings header offGridHeader transfer
  have hplan : settings.IfftPlan ⟨0, 20, by decide, by decide⟩ :=
    ⟨rfl, rfl, rfl, by decide⟩
  have hfd : settings.fd = true := rfl
  have hwritten := (rxCallbacks_ifftWritten hfd hplan
    (.forgetful .wrapping) () [(transfer, ⟨0, 0⟩)]).1
  obtain ⟨entry, hentry, hfrequency⟩ : ∃ entry ∈
      ((State.initial ()).progress.runCalls settings
        [(transfer, ⟨0, 0⟩)]).transformed, entry.frequency = 8333333 := by
    decide
  have houtside : ¬ ∀ idx ∈ ifftIndices (.forgetful .wrapping) settings
      8333333, idx < settings.ifftBins := by
    rw [hplan.forall_lt_iff _ (by decide) (by decide)]
    decide
  intro hinside
  refine houtside fun idx hidx => hinside idx ?_
  rw [hwritten, List.mem_flatMap]
  exact ⟨entry, hentry, by rwa [hfrequency]⟩

end HackRF.Sweep
