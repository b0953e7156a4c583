import HackRF.SampleRate

/-!
# The error of a sample rate

Most rates are not a whole number of hertz over a divider up to 31.
`hackrf_set_sample_rate` takes the least multiplier which brings the rate
within 16 units in the last place of a whole number of hertz, and then misses
the rate by no more than that.  If there is none, it sets the nearest whole
number.
-/

namespace HackRF

open ByteMemory FloatRounding

/-! ## The loop -/

/-- The loop ends with the least multiplier at which it stops, or past the last
one. -/
theorem searchDivider_none {frac mask : UInt64} {fuel i : ℕ}
    (hnone : ∀ j, i + 1 ≤ j → j ≤ i + fuel →
      ¬ (UInt64.ofNat (j * frac.toNat) &&& mask = 0 ∨
        ~~~UInt64.ofNat (j * frac.toNat) &&& mask = 0)) :
    searchDivider frac mask fuel (i + 1)
      (UInt64.ofNat (i * frac.toNat)) = i + fuel + 1 := by
  induction fuel generalizing i with
  | zero => rfl
  | succ fuel ih =>
      have hnext : UInt64.ofNat (i * frac.toNat) + frac =
          UInt64.ofNat ((i + 1) * frac.toNat) := by
        rw [Nat.succ_mul, UInt64.ofNat_add, UInt64.ofNat_toNat]
      have hlater := @ih (i + 1) fun j hlow hhigh =>
        hnone j (by omega) (by omega)
      rw [searchDivider, hnext, if_neg (hnone (i + 1) le_rfl (by omega)),
        hlater]
      omega

/-! ## Multiples close to a whole number -/

theorem nearMultiple_iff {scale x : ℕ} (hscale : 32 ≤ scale) :
    NearMultiple scale x ↔
      ∃ w : ℤ, -16 ≤ (x : ℤ) - w * scale ∧ (x : ℤ) - w * scale < 16 := by
  have hlt := Nat.mod_lt x (show 0 < scale by omega)
  have hdiv : (x : ℤ) - (x / scale : ℕ) * scale = (x % scale : ℕ) := by
    have hsplit : (scale : ℤ) * (x / scale : ℕ) + (x % scale : ℕ) = x := by
      exact_mod_cast Nat.div_add_mod x scale
    linarith
  constructor
  · rintro (hbelow | habove)
    · exact ⟨(x / scale : ℕ), by omega, by omega⟩
    · refine ⟨(x / scale : ℕ) + 1, ?_, ?_⟩ <;> rw [Int.add_mul] <;> omega
  · rintro ⟨w, hlow, hhigh⟩
    obtain ⟨r, hr⟩ : ∃ r, r = (x : ℤ) - w * scale := ⟨_, rfl⟩
    have hmod : ((x % scale : ℕ) : ℤ) = r % scale := by
      rw [hr, Int.sub_mul_emod_self_right, Int.natCast_mod]
    rw [← hr] at hlow hhigh
    unfold NearMultiple
    rcases lt_or_ge r 0 with hneg | hpos
    · have hwrap : r % (scale : ℤ) = r + scale := by
        rw [← Int.add_emod_right, Int.emod_eq_of_lt (by omega) (by omega)]
      omega
    · rw [Int.emod_eq_of_lt hpos (by omega)] at hmod
      omega

section Rate

variable {n e : ℕ}

/-- The multiple of the rate is at most 16 units in the last place of the rate
below a whole number, or less than that above one. -/
def NearWhole (n e j : ℕ) : Prop :=
  ∃ w : ℤ, -(2 : ℚ) ^ ((e : ℤ) - 48) ≤ rate n e * j - w ∧
    rate n e * j - w < 2 ^ ((e : ℤ) - 48)

theorem sixteen_units (he : e ≤ 52) :
    (2 : ℚ) ^ ((e : ℤ) - 48) = 16 / rateScale e := by
  have hexponent : (e : ℤ) - 48 = ((e : ℤ) - 52) + 4 := by ring
  rw [hexponent, zpow_add₀ two_ne_zero, zpow_eq he]
  norm_num
  ring

theorem nearWhole_iff (he : e ≤ 47) (j : ℕ) :
    NearWhole n e j ↔ NearMultiple (rateScale e) (j * n) := by
  have hscale : 32 ≤ rateScale e :=
    Nat.pow_le_pow_right (n := 2) (i := 5) (by decide) (by omega)
  have hpos : (0 : ℚ) < rateScale e := by
    exact_mod_cast (by omega : 0 < rateScale e)
  have hdistance : ∀ w : ℤ, rate n e * j - w =
      ((j * n : ℕ) - w * rateScale e : ℤ) / rateScale e := by
    intro w
    rw [rate_eq (by omega)]
    push_cast
    field_simp
  have hiff : ∀ w : ℤ, (-(2 : ℚ) ^ ((e : ℤ) - 48) ≤ rate n e * j - w ∧
        rate n e * j - w < 2 ^ ((e : ℤ) - 48)) ↔
      -16 ≤ ((j * n : ℕ) : ℤ) - w * rateScale e ∧
        ((j * n : ℕ) : ℤ) - w * rateScale e < 16 := by
    intro w
    rw [sixteen_units (by omega), hdistance, ← neg_div,
      div_le_div_iff_of_pos_right hpos, div_lt_div_iff_of_pos_right hpos]
    constructor
    · rintro ⟨hlow, hhigh⟩
      exact ⟨by exact_mod_cast hlow, by exact_mod_cast hhigh⟩
    · rintro ⟨hlow, hhigh⟩
      exact ⟨by exact_mod_cast hlow, by exact_mod_cast hhigh⟩
  unfold NearWhole
  simp only [hiff]
  exact (nearMultiple_iff hscale).symm

/-- The multiplier at the end of the loop. -/
theorem stopMultiplier_cases (undefinedShift : ℤ → UInt64)
    (hlow : 2 ^ 52 ≤ n) (hhigh : n < 2 ^ 53) (he : e ≤ 24)
    (hsum : rate n e + 1 < 2 ^ (e + 1)) :
    IsLeast {j | 1 ≤ j ∧ j ≤ 31 ∧ NearWhole n e j}
        (stopMultiplier undefinedShift (rate n e)) ∨
      (∀ j, 1 ≤ j → j ≤ 31 → ¬ NearWhole n e j) ∧
        stopMultiplier undefinedShift (rate n e) = maxN := by
  have hmask := toleranceMask_toNat undefinedShift (show e ≤ 26 by omega)
  have hfrac := @frac_toNat n e (by omega) hsum
  unfold stopMultiplier
  dsimp only
  rw [exponent_eq hlow hhigh (by omega)]
  generalize UInt64.ofNat (doubleBits (fl 53 (fl 53 (1 + rate n e) -
    ⌊rate n e⌋))) &&& fractionMask = frac at hfrac ⊢
  have hzero : UInt64.ofNat (0 * frac.toNat) = 0 := by
    rw [Nat.zero_mul]
    rfl
  have hstops : ∀ j ≤ 31,
      (UInt64.ofNat (j * frac.toNat) &&& toleranceMask undefinedShift e = 0 ∨
        ~~~UInt64.ofNat (j * frac.toNat) &&&
          toleranceMask undefinedShift e = 0) ↔ NearWhole n e j := by
    intro j hj
    rw [stops_iff_nearMultiple (by omega) hmask hfrac hj,
      nearWhole_iff (by omega)]
  rw [← hzero]
  by_cases hexists : ∃ j, 1 ≤ j ∧ j ≤ 31 ∧ NearWhole n e j
  · left
    classical
    obtain ⟨hone, h31, hnear⟩ := Nat.find_spec hexists
    have hleast : ∀ j, 1 ≤ j → j < Nat.find hexists → ¬ NearWhole n e j :=
      fun j hj hlt hj' =>
        Nat.find_min hexists hlt ⟨hj, by omega, hj'⟩
    rw [searchDivider_eq ((hstops _ h31).mpr hnear)
      (fun j hj hlt => mt (hstops j (by omega)).mp (hleast j hj hlt)) hone
      (by unfold maxN; omega)]
    exact ⟨⟨hone, h31, hnear⟩, fun j hj => Nat.find_min' hexists hj⟩
  · right
    push Not at hexists
    refine ⟨hexists, ?_⟩
    exact searchDivider_none fun j hj hle =>
      mt (hstops j (by unfold maxN at hle; omega)).mp
        (hexists j hj (by unfold maxN at hle; omega))

/-! ## The frequency -/

theorem toNat_floor {x : ℚ} {w : ℤ} (hfloor : ⌊x⌋ = w) (hlow : 0 ≤ w)
    (hhigh : w < 2 ^ 32) : ((UInt32.ofNat ⌊x⌋₊).toNat : ℤ) = w := by
  rw [← Int.floor_toNat, hfloor,
    UInt32.toNat_ofNat_of_lt' (by unfold UInt32.size; omega)]
  omega

/-- The rounded multiple is the whole number which the multiple is close to. -/
theorem roundedMultiple_of_nearWhole {j : ℕ} (hhigh : n < 2 ^ 53) (he : e ≤ 24)
    (hj : j ≤ 31) (hnear : NearWhole n e j) :
    |((UInt32.ofNat ⌊fl 53 (fl 53 (rate n e * j) + 1 / 2)⌋₊).toNat : ℚ) -
      rate n e * j| ≤ 2 ^ ((e : ℤ) - 48) := by
  obtain ⟨w, hbelow, habove⟩ := hnear
  have hsmall : (2 : ℚ) ^ ((e : ℤ) - 48) ≤ 1 / 8 := by
    calc (2 : ℚ) ^ ((e : ℤ) - 48) ≤ 2 ^ (-3 : ℤ) :=
          zpow_le_zpow_right₀ (by norm_num) (by omega)
      _ = 1 / 8 := by norm_num
  have hclose : |rate n e * j - w| ≤ 2 ^ ((e : ℤ) - 48) :=
    abs_le.mpr ⟨hbelow, habove.le⟩
  obtain ⟨hnonneg, hmax⟩ := rate_mul_bounds hhigh he hj
  have hwlow : 0 ≤ w := by
    have hrat : (-1 : ℚ) < w := by linarith
    have hint : -1 < w := by exact_mod_cast hrat
    omega
  have hwhigh : w < 2 ^ 32 := by
    have hrat : (w : ℚ) < 2 ^ 32 := by linarith
    exact_mod_cast hrat
  obtain ⟨-, hrounded⟩ := @floor_add_half (rate n e * j) w
    (abs_le.mpr ⟨by linarith, by linarith⟩) (hclose.trans hsmall)
  have hvalue : ((UInt32.ofNat
      ⌊fl 53 (fl 53 (rate n e * j) + 1 / 2)⌋₊).toNat : ℚ) = w := by
    exact_mod_cast toNat_floor hrounded hwlow hwhigh
  rw [hvalue, abs_sub_comm]
  exact hclose

/-- Without a multiplier the rate itself is rounded, and none of the operations
rounds before. -/
theorem roundedMultiple_one (hhigh : n < 2 ^ 53) (he : e ≤ 24)
    (hsum : rate n e + 1 < 2 ^ (e + 1)) :
    |((UInt32.ofNat ⌊fl 53 (fl 53 (rate n e * (1 : ℕ)) + 1 / 2)⌋₊).toNat : ℚ) -
      rate n e| ≤ 1 / 2 := by
  have hscale : (0 : ℚ) < rateScale e := by
    exact_mod_cast Nat.two_pow_pos (52 - e)
  have hmul := @rateScale_mul e (by omega)
  have hhalf : rateScale e = 2 * 2 ^ (51 - e) := by
    rw [rateScale, ← pow_succ']
    congr 1
    omega
  have hsignificand : n + rateScale e < 2 ^ 53 := by
    rw [rate_eq (by omega), div_add_one hscale.ne', div_lt_iff₀ hscale] at hsum
    have hcast : n + rateScale e < 2 ^ (e + 1) * rateScale e := by
      exact_mod_cast hsum
    calc n + rateScale e < 2 ^ (e + 1) * rateScale e := hcast
      _ = 2 * (rateScale e * 2 ^ e) := by ring
      _ = 2 ^ 53 := by rw [hmul]; norm_num
  have hexact : fl 53 (rate n e) = rate n e := by
    have hfl := @fl_of_significand 53 (n : ℤ) ((e : ℤ) - 52)
      (by rw [abs_of_nonneg (by omega)]; omega)
    simpa [rate] using hfl
  have hsumExact : fl 53 (rate n e + 1 / 2) = rate n e + 1 / 2 := by
    have hvalue : rate n e + 1 / 2 =
        ((n + 2 ^ (51 - e) : ℕ) : ℤ) * 2 ^ ((e : ℤ) - 52) := by
      rw [rate_eq (by omega), zpow_eq (by omega), hhalf]
      push_cast
      field_simp
    rw [hvalue]
    exact fl_of_significand 53 (by rw [abs_of_nonneg (by omega)]; omega)
  obtain ⟨hnonneg, hmax⟩ := @rate_mul_bounds n e 1 hhigh he (by decide)
  rw [Nat.cast_one, mul_one] at hnonneg hmax ⊢
  rw [hexact, hsumExact]
  have hbelow := Int.floor_le (rate n e + 1 / 2)
  have habove := Int.lt_floor_add_one (rate n e + 1 / 2)
  have hvalue : ((UInt32.ofNat ⌊rate n e + 1 / 2⌋₊).toNat : ℚ) =
      (⌊rate n e + 1 / 2⌋ : ℤ) := by
    have hlow : 0 ≤ ⌊rate n e + 1 / 2⌋ := Int.floor_nonneg.mpr (by linarith)
    have hfits : ⌊rate n e + 1 / 2⌋ < 2 ^ 32 := by
      have hrat : ((⌊rate n e + 1 / 2⌋ : ℤ) : ℚ) < 2 ^ 32 := by linarith
      exact_mod_cast hrat
    exact_mod_cast toNat_floor rfl hlow hfits
  rw [hvalue, abs_le]
  constructor <;> linarith

/-- Every rate is set as the multiple by the least multiplier which brings it
within 16 units in its last place of a whole number of hertz, and the rate
which is set misses it by no more than that share of the multiplier; if there
is no such multiplier, it is set as the nearest whole number. -/
theorem hackrfSetSampleRate_close (host : ByteOrder) (usb : Usb)
    (stack : Memory) (undefined : UInt32) (undefinedShift : ℤ → UInt64)
    (s : ControlState) (hlow : 2 ^ 52 ≤ n) (hhigh : n < 2 ^ 53) (he : e ≤ 24)
    (hsum : rate n e + 1 < 2 ^ (e + 1)) :
    ∃ (freqHz : UInt32) (divider : ℕ),
      hackrfSetSampleRate host usb stack undefined undefinedShift (rate n e)
          s =
        hackrfSetSampleRateManual host usb stack undefined freqHz
          (UInt32.ofNat divider) s ∧
      ((IsLeast {j | 1 ≤ j ∧ j ≤ 31 ∧ NearWhole n e j} divider ∧
          |(freqHz.toNat : ℚ) / divider - rate n e| ≤
            2 ^ ((e : ℤ) - 48) / divider) ∨
        (∀ j, 1 ≤ j → j ≤ 31 → ¬ NearWhole n e j) ∧ divider = 1 ∧
          |(freqHz.toNat : ℚ) - rate n e| ≤ 1 / 2) := by
  unfold hackrfSetSampleRate
  dsimp only
  rcases stopMultiplier_cases undefinedShift hlow hhigh he hsum with
    hleast | ⟨hnone, hmax⟩
  · obtain ⟨hone, h31, hnear⟩ := hleast.1
    have hnotMax : stopMultiplier undefinedShift (rate n e) ≠ maxN := by
      unfold maxN
      omega
    rw [if_neg hnotMax]
    refine ⟨_, _, rfl, .inl ⟨hleast, ?_⟩⟩
    generalize stopMultiplier undefinedShift (rate n e) = j at *
    have hpos : (0 : ℚ) < j := by exact_mod_cast hone
    have hclose := roundedMultiple_of_nearWhole hhigh he h31 hnear
    rw [div_sub' hpos.ne', abs_div, abs_of_pos hpos, mul_comm (j : ℚ)]
    gcongr
  · rw [if_pos hmax]
    exact ⟨_, 1, rfl,
      .inr ⟨hnone, rfl, roundedMultiple_one hhigh he hsum⟩⟩

/-- 9999999.7 Hz, whose tenfold is a whole number up to rounding. -/
theorem hackrfSetSampleRate_close_tenth :
    ∃ (freqHz : UInt32) (divider : ℕ),
      hackrfSetSampleRate .little obligingUsb (fun _ => 0) 0 (fun _ => 0)
          (rate 5368708958938726 23) ⟨0, []⟩ =
        hackrfSetSampleRateManual .little obligingUsb (fun _ => 0) 0 freqHz
          (UInt32.ofNat divider) ⟨0, []⟩ ∧
      ((IsLeast {j | 1 ≤ j ∧ j ≤ 31 ∧ NearWhole 5368708958938726 23 j}
            divider ∧
          |(freqHz.toNat : ℚ) / divider - rate 5368708958938726 23| ≤
            2 ^ ((23 : ℕ) - 48 : ℤ) / divider) ∨
        (∀ j, 1 ≤ j → j ≤ 31 → ¬ NearWhole 5368708958938726 23 j) ∧
          divider = 1 ∧
          |(freqHz.toNat : ℚ) - rate 5368708958938726 23| ≤ 1 / 2) :=
  hackrfSetSampleRate_close .little obligingUsb (fun _ => 0) 0 (fun _ => 0)
    ⟨0, []⟩ (by norm_num) (by norm_num) (by norm_num) (by norm_num [rate])

end Rate

end HackRF
