import HackRF.HostByteOrder

/-!
# Fractional sample rates

`hackrf_set_sample_rate` looks for a small multiplier which makes the rate a
whole number of hertz.  It adds up the fraction of the rate, as the 52 bits of
a significand, and tests with a mask whether the sum is within a few low bits
of an integer.  The multiplier becomes the divider, and the rounded multiple
the frequency.
-/

namespace HackRF

open ByteMemory FloatRounding

def maxN : ℕ := 32

/-- The loop, with `fuel` iterations left at the multiplier `i`; its result is
the `i` it ends with. -/
def searchDivider (frac mask : UInt64) : ℕ → ℕ → UInt64 → ℕ
  | 0, i, _ => i
  | fuel + 1, i, a =>
      let a := a + frac
      if a &&& mask = 0 ∨ ~~~a &&& mask = 0 then i
      else searchDivider frac mask fuel (i + 1) a

def fractionMask : UInt64 := ((1 : UInt64) <<< 52) - 1

/-- The mask for the exponent `e`.  The shift is one of the `int` 1, undefined
outside of 0 to 30. -/
def toleranceMask (undefinedShift : ℤ → UInt64) (e : ℤ) : UInt64 :=
  let shifted :=
    if 0 ≤ e + 4 ∧ e + 4 ≤ 30 then (1 : UInt64) <<< UInt64.ofNat (e + 4).toNat
    else undefinedShift (e + 4)
  fractionMask &&& ~~~(shifted - 1)

/-- The multiplier at the end of the loop, for a positive normal double. -/
def stopMultiplier (undefinedShift : ℤ → UInt64) (freq : ℚ) : ℕ :=
  let freqFrac := fl 53 (fl 53 (1 + freq) - ⌊freq⌋)
  let e : ℤ := (UInt64.ofNat (doubleBits freq) >>> 52).toNat - 1023
  let frac := UInt64.ofNat (doubleBits freqFrac) &&& fractionMask
  searchDivider frac (toleranceMask undefinedShift e) (maxN - 1) 1 0

/-- `hackrf_set_sample_rate` for a positive normal double.  Rates for which the
shift is defined are below 2 ^ 27, and their multiples fit `uint32_t`. -/
def hackrfSetSampleRate (host : ByteOrder) (usb : Usb) (stack : Memory)
    (undefined : UInt32) (undefinedShift : ℤ → UInt64) (freq : ℚ)
    (s : ControlState) : HackrfError × ControlState :=
  let i := stopMultiplier undefinedShift freq
  let i := if i = maxN then 1 else i
  let freqHz := UInt32.ofNat ⌊fl 53 (fl 53 (freq * i) + 1 / 2)⌋₊
  hackrfSetSampleRateManual host usb stack undefined freqHz (UInt32.ofNat i) s

/-! ## The mask -/

/-- Masking the bits from `k` up to `w` leaves nothing if what is below `w` is
also below `k`. -/
theorem and_window_eq_zero_iff {x k w : ℕ} (hk : k ≤ w) :
    x &&& (2 ^ w - 2 ^ k) = 0 ↔ x % 2 ^ w < 2 ^ k := by
  have hpow : 2 ^ w = 2 ^ k * 2 ^ (w - k) := by
    rw [← pow_add]
    congr 1
    omega
  have hwindow : 2 ^ w - 2 ^ k = 2 ^ k * (2 ^ (w - k) - 1) := by
    rw [hpow, Nat.mul_sub, Nat.mul_one]
  have hlow : (x &&& (2 ^ w - 2 ^ k)) % 2 ^ k = 0 := by
    rw [Nat.and_mod_two_pow, hwindow, Nat.mul_mod_right, Nat.and_zero]
  have hhigh : (x &&& (2 ^ w - 2 ^ k)) / 2 ^ k = x % 2 ^ w / 2 ^ k := by
    rw [Nat.and_div_two_pow, hwindow,
      Nat.mul_div_cancel_left _ (Nat.two_pow_pos k),
      Nat.and_two_pow_sub_one_eq_mod, hpow, Nat.mod_mul_right_div_self]
  rw [← Nat.div_eq_zero_iff_lt (Nat.two_pow_pos k), ← hhigh]
  constructor
  · intro hzero
    rw [hzero, Nat.zero_div]
  · intro hzero
    rw [← Nat.div_add_mod (x &&& (2 ^ w - 2 ^ k)) (2 ^ k), hzero, hlow,
      Nat.mul_zero]

theorem toleranceMask_toNat (undefinedShift : ℤ → UInt64) {e : ℕ}
    (he : e ≤ 26) :
    (toleranceMask undefinedShift e).toNat = 2 ^ 52 - 2 ^ (e + 4) := by
  have hmasks : ∀ k < 31,
      (fractionMask &&& ~~~(((1 : UInt64) <<< UInt64.ofNat k) - 1)).toNat =
        2 ^ 52 - 2 ^ k := by
    decide
  have hshift : ((e : ℤ) + 4).toNat = e + 4 := by omega
  unfold toleranceMask
  rw [if_pos (by omega), hshift]
  exact hmasks (e + 4) (by omega)

/-- The loop stops when the sum is close to an integer on either side. -/
theorem stops_iff {a mask : UInt64} {k : ℕ} (hk : k ≤ 52)
    (hmask : mask.toNat = 2 ^ 52 - 2 ^ k) :
    a &&& mask = 0 ∨ ~~~a &&& mask = 0 ↔
      a.toNat % 2 ^ 52 < 2 ^ k ∨ 2 ^ 52 - 2 ^ k ≤ a.toNat % 2 ^ 52 := by
  have hlt := a.toNat_lt
  have hpow : 2 ^ k ≤ 2 ^ 52 := Nat.pow_le_pow_right (by decide) hk
  have hsum : (a &&& mask).toNat = a.toNat &&& (2 ^ 52 - 2 ^ k) := by
    rw [UInt64.toNat_and, hmask]
  have hcomplement : (~~~a &&& mask).toNat =
      (2 ^ 64 - 1 - a.toNat) &&& (2 ^ 52 - 2 ^ k) := by
    rw [UInt64.toNat_and, UInt64.toNat_not, hmask]
    rfl
  rw [← UInt64.toNat_inj, ← UInt64.toNat_inj, hsum, hcomplement,
    UInt64.toNat_zero, and_window_eq_zero_iff hk, and_window_eq_zero_iff hk]
  omega

/-! ## The loop -/

theorem searchDivider_eq {frac mask : UInt64} {q : ℕ}
    (hstops : UInt64.ofNat (q * frac.toNat) &&& mask = 0 ∨
      ~~~UInt64.ofNat (q * frac.toNat) &&& mask = 0)
    (hbefore : ∀ j, 1 ≤ j → j < q →
      ¬ (UInt64.ofNat (j * frac.toNat) &&& mask = 0 ∨
        ~~~UInt64.ofNat (j * frac.toNat) &&& mask = 0))
    {fuel i : ℕ} (hi : i + 1 ≤ q) (hfuel : q ≤ i + fuel) :
    searchDivider frac mask fuel (i + 1)
      (UInt64.ofNat (i * frac.toNat)) = q := by
  induction fuel generalizing i with
  | zero => omega
  | succ fuel ih =>
      have hnext : UInt64.ofNat (i * frac.toNat) + frac =
          UInt64.ofNat ((i + 1) * frac.toNat) := by
        rw [Nat.succ_mul, UInt64.ofNat_add, UInt64.ofNat_toNat]
      rw [searchDivider, hnext]
      rcases Nat.lt_or_eq_of_le hi with hlt | rfl
      · rw [if_neg (hbefore _ (by omega) hlt)]
        exact ih hlt (by omega)
      · rw [if_pos hstops]

/-! ## Sums close to an integer -/

/-- The sum of fractions is within 16 units of a multiple of the unit's
`scale`. -/
def NearMultiple (scale x : ℕ) : Prop :=
  x % scale < 16 ∨ scale - 16 ≤ x % scale

theorem nearMultiple_of_close {scale x : ℕ} {z r : ℤ} (hscale : 32 ≤ scale)
    (hx : (x : ℤ) = z * scale + r) (hr : |r| ≤ 15) : NearMultiple scale x := by
  obtain ⟨hlow, hhigh⟩ := abs_le.mp hr
  have hmod : ((x % scale : ℕ) : ℤ) = r % scale := by
    rw [Int.natCast_mod, hx, Int.add_comm, Int.add_mul_emod_self_right]
  rcases lt_or_ge r 0 with hneg | hpos
  · have hwrap : r % (scale : ℤ) = r + scale := by
      rw [← Int.add_emod_right, Int.emod_eq_of_lt (by omega) (by omega)]
    refine .inr ?_
    omega
  · rw [Int.emod_eq_of_lt hpos (by omega)] at hmod
    refine .inl ?_
    omega

theorem close_of_nearMultiple {scale x : ℕ} (hscale : 32 ≤ scale)
    (hnear : NearMultiple scale x) :
    ∃ z t : ℤ, (x : ℤ) = z * scale + t ∧ |t| ≤ 16 := by
  have hdiv : (scale : ℤ) * (x / scale : ℕ) + (x % scale : ℕ) = x := by
    exact_mod_cast Nat.div_add_mod x scale
  have hlt := Nat.mod_lt x (show 0 < scale by omega)
  rcases hnear with hbelow | habove
  · refine ⟨(x / scale : ℕ), (x % scale : ℕ), by linarith, ?_⟩
    rw [abs_le]
    omega
  · refine ⟨(x / scale : ℕ) + 1, (x % scale : ℕ) - scale, by linarith, ?_⟩
    rw [abs_le]
    omega

/-- If `q` is the denominator of a fraction close to `n / scale`, no smaller
multiple of `n` is near a multiple of `scale`. -/
theorem not_nearMultiple_of_lt {scale n q j : ℕ} {w r : ℤ}
    (hscale : 1024 ≤ scale) (hq : q ≤ 31) (hcoprime : IsCoprime (q : ℤ) w)
    (hmultiple : (q * n : ℤ) = w * scale + r) (hr : |r| ≤ 15) (hj : 1 ≤ j)
    (hlt : j < q) : ¬ NearMultiple scale (j * n) := by
  intro hnear
  obtain ⟨z, t, hsum, ht⟩ := close_of_nearMultiple (by omega) hnear
  push_cast at hsum
  -- a multiple of `scale` that is smaller than `scale`
  have hdifference : (scale : ℤ) * (q * z - j * w) = j * r - q * t := by
    linear_combination j * hmultiple - q * hsum
  have hsmall : |(j : ℤ) * r - q * t| < scale := by
    have hfirst : |(j : ℤ) * r| ≤ 30 * 15 := by
      rw [abs_mul, Nat.abs_cast]
      exact mul_le_mul (by omega) hr (abs_nonneg _) (by norm_num)
    have hsecond : |(q : ℤ) * t| ≤ 31 * 16 := by
      rw [abs_mul, Nat.abs_cast]
      exact mul_le_mul (by omega) ht (abs_nonneg _) (by norm_num)
    have hboth := abs_sub (j * r : ℤ) (q * t)
    omega
  have hzero := Int.eq_zero_of_abs_lt_dvd ⟨_, hdifference.symm⟩ hsmall
  rw [hzero, mul_eq_zero] at hdifference
  have hcross : (j : ℤ) * w = q * z := by
    rcases hdifference with hscale' | hcross
    · omega
    · linarith
  have hdvd : (q : ℤ) ∣ j :=
    hcoprime.dvd_of_dvd_mul_right ⟨z, hcross⟩
  have hle := Int.le_of_dvd (by omega) hdvd
  omega

/-! ## The rate and its fraction -/

section Rate

variable {n e : ℕ}

/-- The double with the significand `n` and the exponent `e`. -/
def rate (n e : ℕ) : ℚ := n * 2 ^ ((e : ℤ) - 52)

/-- The number of units of the significand in one. -/
def rateScale (e : ℕ) : ℕ := 2 ^ (52 - e)

theorem rateScale_mul (he : e ≤ 52) : rateScale e * 2 ^ e = 2 ^ 52 := by
  rw [rateScale, ← pow_add]
  congr 1
  omega

theorem zpow_eq (he : e ≤ 52) : (2 : ℚ) ^ ((e : ℤ) - 52) = 1 / rateScale e := by
  have hexponent : (e : ℤ) - 52 = -((52 - e : ℕ) : ℤ) := by omega
  rw [hexponent, zpow_neg, zpow_natCast, rateScale, one_div]
  push_cast
  rfl

theorem rate_eq (he : e ≤ 52) : rate n e = n / rateScale e := by
  rw [rate, zpow_eq he, mul_one_div]

theorem floor_rate (he : e ≤ 52) : ⌊rate n e⌋ = (n / rateScale e : ℕ) := by
  rw [rate_eq he]
  exact_mod_cast Rat.floor_natCast_div_natCast n (rateScale e)

theorem exponent_eq (hlow : 2 ^ 52 ≤ n) (hhigh : n < 2 ^ 53) (he : e ≤ 1000) :
    ((UInt64.ofNat (doubleBits (rate n e)) >>> 52).toNat : ℤ) - 1023 = e := by
  have hbits : doubleBits (rate n e) = (e + 1023) * 2 ^ 52 + (n - 2 ^ 52) := by
    have hbits := @doubleBits_of_significand n e hlow hhigh
    rwa [show ((e : ℤ) + 1023).toNat = e + 1023 by omega] at hbits
  have hlt : (e + 1023) * 2 ^ 52 + (n - 2 ^ 52) < 2 ^ 64 := by omega
  have hshift : (52 : UInt64).toNat % 64 = 52 := rfl
  have hquotient : ((e + 1023) * 2 ^ 52 + (n - 2 ^ 52)) / 2 ^ 52 = e + 1023 := by
    omega
  rw [hbits, UInt64.toNat_shiftRight, UInt64.toNat_ofNat_of_lt' hlt, hshift,
    Nat.shiftRight_eq_div_pow, hquotient]
  omega

/-- Adding one and taking off the whole part leaves the fraction after a
leading one, without rounding. -/
theorem freqFrac_eq (he : e ≤ 51) (hsum : rate n e + 1 < 2 ^ (e + 1)) :
    fl 53 (fl 53 (1 + rate n e) - ⌊rate n e⌋) =
      ((rateScale e + n % rateScale e : ℕ) : ℚ) * 2 ^ ((e : ℤ) - 52) := by
  have hscale : 0 < rateScale e := Nat.two_pow_pos _
  have hscaleRat : (0 : ℚ) < rateScale e := by exact_mod_cast hscale
  have hmul := @rateScale_mul e (by omega)
  have hsumNat : n + rateScale e < 2 ^ 53 := by
    rw [rate_eq (by omega), div_add_one hscaleRat.ne',
      div_lt_iff₀ hscaleRat] at hsum
    have hcast : n + rateScale e < 2 ^ (e + 1) * rateScale e := by
      exact_mod_cast hsum
    calc n + rateScale e < 2 ^ (e + 1) * rateScale e := hcast
      _ = 2 * (rateScale e * 2 ^ e) := by ring
      _ = 2 ^ 53 := by rw [hmul]; norm_num
  have hone : 1 + rate n e =
      ((n + rateScale e : ℕ) : ℤ) * 2 ^ ((e : ℤ) - 52) := by
    rw [rate_eq (by omega), zpow_eq (by omega)]
    push_cast
    field_simp
    ring
  have hrest : 1 + rate n e - (n / rateScale e : ℕ) =
      ((rateScale e + n % rateScale e : ℕ) : ℤ) * 2 ^ ((e : ℤ) - 52) := by
    have hdiv : (n : ℚ) = rateScale e * (n / rateScale e : ℕ) +
        (n % rateScale e : ℕ) := by
      exact_mod_cast (Nat.div_add_mod n (rateScale e)).symm
    rw [rate_eq (by omega), zpow_eq (by omega)]
    generalize n / rateScale e = whole at *
    generalize n % rateScale e = rest at *
    push_cast
    field_simp
    linarith
  have hmod := Nat.mod_lt n hscale
  have hscaleLe : rateScale e ≤ 2 ^ 52 := by
    rw [← hmul]
    exact Nat.le_mul_of_pos_right _ (Nat.two_pow_pos e)
  have hexact : fl 53 (1 + rate n e) = 1 + rate n e := by
    rw [hone]
    exact fl_of_significand 53 (by rw [abs_of_nonneg (by omega)]; omega)
  rw [hexact, floor_rate (by omega), Int.cast_natCast, hrest,
    fl_of_significand 53 (by rw [abs_of_nonneg (by omega)]; omega),
    Int.cast_natCast]

/-- The word which the loop adds up is the fraction of the rate. -/
theorem frac_toNat (he : e ≤ 51) (hsum : rate n e + 1 < 2 ^ (e + 1)) :
    (UInt64.ofNat (doubleBits (fl 53 (fl 53 (1 + rate n e) - ⌊rate n e⌋))) &&&
        fractionMask).toNat = n % rateScale e * 2 ^ e := by
  have hscale : 0 < rateScale e := Nat.two_pow_pos _
  have hmul := @rateScale_mul e (by omega)
  have hmod := Nat.mod_lt n hscale
  have hmask : fractionMask.toNat = 2 ^ 52 - 1 := by decide
  have hfraction : n % rateScale e * 2 ^ e < 2 ^ 52 := by
    rw [← hmul]
    exact Nat.mul_lt_mul_of_pos_right hmod (Nat.two_pow_pos e)
  have hvalue : fl 53 (fl 53 (1 + rate n e) - ⌊rate n e⌋) =
      ((2 ^ 52 + n % rateScale e * 2 ^ e : ℕ) : ℚ) * 2 ^ ((0 : ℤ) - 52) := by
    have hunit : (2 : ℚ) ^ ((e : ℤ) - 52) = 2 ^ e * 2 ^ ((0 : ℤ) - 52) := by
      rw [← zpow_natCast, ← zpow_add₀ two_ne_zero, zero_sub,
        sub_eq_add_neg]
    rw [freqFrac_eq he hsum, ← hmul, ← Nat.add_mul, hunit]
    push_cast
    ring
  have hbits := @doubleBits_of_significand
    (2 ^ 52 + n % rateScale e * 2 ^ e) 0 (by omega) (by omega)
  rw [hvalue, hbits, UInt64.toNat_and, hmask, Nat.and_two_pow_sub_one_eq_mod,
    UInt64.toNat_ofNat_of_lt' (by norm_num; omega)]
  norm_num
  omega

/-- The loop stops at a multiplier exactly if it takes the significand near a
multiple of the scale. -/
theorem stops_iff_nearMultiple {frac mask : UInt64} {j : ℕ} (he : e ≤ 48)
    (hmask : mask.toNat = 2 ^ 52 - 2 ^ (e + 4))
    (hfrac : frac.toNat = n % rateScale e * 2 ^ e) (hj : j ≤ 31) :
    (UInt64.ofNat (j * frac.toNat) &&& mask = 0 ∨
        ~~~UInt64.ofNat (j * frac.toNat) &&& mask = 0) ↔
      NearMultiple (rateScale e) (j * n) := by
  have hunit : 0 < 2 ^ e := Nat.two_pow_pos e
  have hmul := @rateScale_mul e (by omega)
  have hmod := Nat.mod_lt n (show 0 < rateScale e from Nat.two_pow_pos _)
  have hfraction : frac.toNat < 2 ^ 52 := by
    rw [hfrac, ← hmul]
    exact Nat.mul_lt_mul_of_pos_right hmod hunit
  have hproduct : j * frac.toNat < UInt64.size := by
    calc j * frac.toNat ≤ 31 * frac.toNat := Nat.mul_le_mul_right _ hj
      _ < UInt64.size := by unfold UInt64.size; omega
  have hsum : j * frac.toNat % 2 ^ 52 = j * n % rateScale e * 2 ^ e := by
    rw [hfrac, ← hmul, ← Nat.mul_assoc, Nat.mul_mod_mul_right,
      Nat.mul_mod_mod]
  have hbelow : 2 ^ (e + 4) = 16 * 2 ^ e := by ring
  have habove : 2 ^ 52 - 2 ^ (e + 4) = (rateScale e - 16) * 2 ^ e := by
    rw [Nat.sub_mul, hmul, hbelow]
  rw [stops_iff (by omega) hmask, UInt64.toNat_ofNat_of_lt' hproduct, hsum,
    habove, hbelow, Nat.mul_lt_mul_right hunit, Nat.mul_le_mul_right_iff hunit]
  rfl

/-- How far the `q`-fold significand is from a multiple of the scale. -/
theorem multiple_eq {N : ℤ} {p q : ℕ} (he : e ≤ 52) (hq : 1 ≤ q)
    (hq31 : q ≤ 31)
    (hclose : |rate n e - (N + p / q)| ≤ 2 ^ ((e : ℤ) - 53)) :
    ∃ r : ℤ, (q * n : ℤ) = (q * N + p) * rateScale e + r ∧ |r| ≤ 15 := by
  refine ⟨q * n - (q * N + p) * rateScale e, by ring, ?_⟩
  have hscale : (0 : ℚ) < rateScale e := by
    exact_mod_cast Nat.two_pow_pos (52 - e)
  have hqpos : (0 : ℚ) < q := by exact_mod_cast hq
  have hhalf : (2 : ℚ) ^ ((e : ℤ) - 53) = 1 / rateScale e / 2 := by
    rw [← zpow_eq he, div_eq_mul_inv, ← zpow_sub_one₀ (two_ne_zero' ℚ)]
    congr 1
    ring
  have hdistance : (q * n - (q * N + p) * rateScale e : ℚ) =
      (rate n e - (N + p / q)) * (q * rateScale e) := by
    rw [rate_eq he]
    field_simp
  have hbound : |(q * n - (q * N + p) * rateScale e : ℚ)| ≤ q / 2 := by
    calc |(q * n - (q * N + p) * rateScale e : ℚ)|
        = |rate n e - (N + p / q)| * (q * rateScale e) := by
          rw [hdistance, abs_mul, abs_of_pos (a := (q * rateScale e : ℚ))
            (by positivity)]
      _ ≤ 1 / rateScale e / 2 * (q * rateScale e) := by
          rw [← hhalf]
          gcongr
      _ = q / 2 := by field_simp
  have hdouble : 2 * |(q * n - (q * N + p) * rateScale e : ℤ)| ≤ q := by
    have hcast : (2 * |(q * n - (q * N + p) * rateScale e : ℤ)| : ℚ) ≤ q := by
      push_cast
      linarith
    exact_mod_cast hcast
  omega

theorem stopMultiplier_eq (undefinedShift : ℤ → UInt64) {N : ℤ} {p q : ℕ}
    (hlow : 2 ^ 52 ≤ n) (hhigh : n < 2 ^ 53) (he : e ≤ 24)
    (hsum : rate n e + 1 < 2 ^ (e + 1)) (hq : 1 ≤ q) (hq31 : q ≤ 31)
    (hcoprime : p.Coprime q)
    (hclose : |rate n e - (N + p / q)| ≤ 2 ^ ((e : ℤ) - 53)) :
    stopMultiplier undefinedShift (rate n e) = q := by
  obtain ⟨r, hmultiple, hr⟩ := multiple_eq (by omega) hq hq31 hclose
  have hscale : 1024 ≤ rateScale e :=
    Nat.pow_le_pow_right (n := 2) (i := 10) (by decide) (by omega)
  have hunits : IsCoprime (q : ℤ) (q * N + p) := by
    rw [add_comm]
    exact (Nat.isCoprime_iff_coprime.mpr hcoprime.symm).add_mul_left_right N
  have hmask := toleranceMask_toNat undefinedShift (show e ≤ 26 by omega)
  have hfrac := @frac_toNat n e (by omega) hsum
  unfold stopMultiplier
  dsimp only
  rw [exponent_eq hlow hhigh (by omega)]
  generalize UInt64.ofNat (doubleBits (fl 53 (fl 53 (1 + rate n e) -
    ⌊rate n e⌋))) &&& fractionMask = frac at hfrac ⊢
  have hzero : UInt64.ofNat (0 * frac.toNat) = 0 := by
    rw [Nat.zero_mul]
    rfl
  rw [← hzero]
  refine searchDivider_eq ?_ ?_ hq ?_
  · rw [stops_iff_nearMultiple (by omega) hmask hfrac hq31]
    exact nearMultiple_of_close (by omega) (by push_cast; exact hmultiple) hr
  · intro j hj hlt
    rw [stops_iff_nearMultiple (by omega) hmask hfrac (by omega)]
    exact not_nearMultiple_of_lt hscale hq31 hunits hmultiple hr hj hlt
  · unfold maxN
    omega

end Rate

/-! ## The multiple -/

theorem abs_fl_sub_le_sixteenth {x : ℚ} (hx : |x| ≤ 2 ^ 33) :
    |fl 53 x - x| ≤ 1 / 16 := by
  have herror := abs_fl_sub_le 53 x
  have hunit : (2 : ℚ) ^ (-((53 : ℕ) : ℤ)) ≤ 1 / 16 / 2 ^ 33 := by norm_num
  calc |fl 53 x - x| ≤ |x| * 2 ^ (-((53 : ℕ) : ℤ)) := herror
    _ ≤ 2 ^ 33 * (1 / 16 / 2 ^ 33) := by gcongr
    _ = 1 / 16 := by norm_num

theorem floor_add_half {x : ℚ} {w : ℤ} (hw : |(w : ℚ)| ≤ 2 ^ 32)
    (hx : |x - w| ≤ 1 / 8) :
    ⌊x + 1 / 2⌋ = w ∧ ⌊fl 53 (fl 53 x + 1 / 2)⌋ = w := by
  obtain ⟨hwlow, hwhigh⟩ := abs_le.mp hw
  obtain ⟨hxlow, hxhigh⟩ := abs_le.mp hx
  obtain ⟨hfirstLow, hfirstHigh⟩ := abs_le.mp
    (@abs_fl_sub_le_sixteenth x (abs_le.mpr ⟨by linarith, by linarith⟩))
  obtain ⟨hsecondLow, hsecondHigh⟩ := abs_le.mp
    (@abs_fl_sub_le_sixteenth (fl 53 x + 1 / 2)
      (abs_le.mpr ⟨by linarith, by linarith⟩))
  rw [Int.floor_eq_iff, Int.floor_eq_iff]
  refine ⟨⟨?_, ?_⟩, ?_, ?_⟩ <;> linarith

section Rate

variable {n e : ℕ} {N : ℤ} {p q : ℕ}

theorem rate_mul_close (he : e ≤ 24) (hq : 1 ≤ q) (hq31 : q ≤ 31)
    (hclose : |rate n e - (N + p / q)| ≤ 2 ^ ((e : ℤ) - 53)) :
    |rate n e * q - (q * N + p : ℤ)| ≤ 1 / 8 := by
  obtain ⟨r, hmultiple, hr⟩ := multiple_eq (by omega) hq hq31 hclose
  have hscaleNat : 1024 ≤ rateScale e :=
    Nat.pow_le_pow_right (n := 2) (i := 10) (by decide) (by omega)
  have hscale : (1024 : ℚ) ≤ rateScale e := by exact_mod_cast hscaleNat
  have hpos : (0 : ℚ) < rateScale e := by linarith
  have hmultipleRat : (q * n : ℚ) = (q * N + p) * rateScale e + r := by
    exact_mod_cast hmultiple
  have hdifference : rate n e * q - (q * N + p : ℤ) = r / rateScale e := by
    rw [rate_eq (by omega), eq_div_iff hpos.ne']
    push_cast
    field_simp
    linarith
  have hrRat : |(r : ℚ)| ≤ 15 := by exact_mod_cast hr
  rw [hdifference, abs_div, abs_of_pos hpos, div_le_iff₀ hpos]
  linarith

theorem rate_mul_bounds (hhigh : n < 2 ^ 53) (he : e ≤ 24) (hq31 : q ≤ 31) :
    0 ≤ rate n e * q ∧ rate n e * q ≤ 2 ^ 31 - 1 := by
  have hmul := @rateScale_mul e (by omega)
  have hpos : (0 : ℚ) < rateScale e := by
    exact_mod_cast Nat.two_pow_pos (52 - e)
  have hrate : rate n e ≤ 2 ^ 25 := by
    rw [rate_eq (by omega), div_le_iff₀ hpos]
    have hnat : n ≤ 2 ^ 25 * rateScale e := by
      calc n ≤ 2 * (rateScale e * 2 ^ e) := by rw [hmul]; omega
        _ ≤ 2 * (rateScale e * 2 ^ 24) := by gcongr; decide
        _ = 2 ^ 25 * rateScale e := by ring
    exact_mod_cast hnat
  have hnonneg : 0 ≤ rate n e := by
    unfold rate
    positivity
  have hqRat : (q : ℚ) ≤ 31 := by exact_mod_cast hq31
  refine ⟨by positivity, ?_⟩
  calc rate n e * q ≤ 2 ^ 25 * 31 := by gcongr
    _ ≤ 2 ^ 31 - 1 := by norm_num

/-- A rate as close to a fraction with a denominator up to 31 as half a unit
in its last place is set as this fraction. -/
theorem hackrfSetSampleRate_exact (host : ByteOrder) (usb : Usb)
    (stack : Memory) (undefined : UInt32) (undefinedShift : ℤ → UInt64)
    (s : ControlState) (hlow : 2 ^ 52 ≤ n) (hhigh : n < 2 ^ 53) (he : e ≤ 24)
    (hsum : rate n e + 1 < 2 ^ (e + 1)) (hq : 1 ≤ q) (hq31 : q ≤ 31)
    (hcoprime : p.Coprime q)
    (hclose : |rate n e - (N + p / q)| ≤ 2 ^ ((e : ℤ) - 53)) :
    stopMultiplier undefinedShift (rate n e) = q ∧
      ⌊rate n e * q + 1 / 2⌋ = q * N + p ∧
      ∃ freqHz : UInt32, (freqHz.toNat : ℤ) = q * N + p ∧
        hackrfSetSampleRate host usb stack undefined undefinedShift (rate n e)
            s =
          hackrfSetSampleRateManual host usb stack undefined freqHz
            (UInt32.ofNat q) s := by
  have hstop := stopMultiplier_eq undefinedShift hlow hhigh he hsum hq hq31
    hcoprime hclose
  have hnear := rate_mul_close he hq hq31 hclose
  obtain ⟨hnonneg, hmax⟩ := rate_mul_bounds hhigh he hq31
  obtain ⟨hbelow, habove⟩ := abs_le.mp hnear
  have hwlow : 0 ≤ (q * N + p : ℤ) := by
    have hrat : (-1 : ℚ) < (q * N + p : ℤ) := by linarith
    have hint : -1 < (q * N + p : ℤ) := by exact_mod_cast hrat
    omega
  have hwhigh : (q * N + p : ℤ) < 2 ^ 32 := by
    have hrat : ((q * N + p : ℤ) : ℚ) < 2 ^ 32 := by linarith
    exact_mod_cast hrat
  obtain ⟨hexact, hrounded⟩ := @floor_add_half (rate n e * q) (q * N + p)
    (abs_le.mpr ⟨by linarith, by linarith⟩) hnear
  refine ⟨hstop, hexact, UInt32.ofNat (q * N + p : ℤ).toNat, ?_, ?_⟩
  · rw [UInt32.toNat_ofNat_of_lt' (by unfold UInt32.size; omega)]
    omega
  · have hnotMax : q ≠ maxN := by
      unfold maxN
      omega
    unfold hackrfSetSampleRate
    dsimp only
    rw [hstop, if_neg hnotMax, ← Int.floor_toNat, hrounded]

/-- Ten million and a third hertz, as the double next to it. -/
theorem hackrfSetSampleRate_exact_third :
    stopMultiplier (fun _ => 0) (rate 5368709298956971 23) = 3 ∧
      ⌊rate 5368709298956971 23 * (3 : ℕ) + 1 / 2⌋ =
        (3 : ℕ) * 10000000 + (1 : ℕ) ∧
      ∃ freqHz : UInt32,
        (freqHz.toNat : ℤ) = (3 : ℕ) * 10000000 + (1 : ℕ) ∧
          hackrfSetSampleRate .little obligingUsb (fun _ => 0) 0 (fun _ => 0)
              (rate 5368709298956971 23) ⟨0, []⟩ =
            hackrfSetSampleRateManual .little obligingUsb (fun _ => 0) 0 freqHz
              (UInt32.ofNat 3) ⟨0, []⟩ := by
  refine hackrfSetSampleRate_exact .little obligingUsb (fun _ => 0) 0
    (fun _ => 0) ⟨0, []⟩ (by norm_num) (by norm_num) (by norm_num) ?_
    (by norm_num) (by norm_num) (by norm_num) ?_
  · norm_num [rate]
  · norm_num [rate, abs_le]

end Rate

end HackRF
