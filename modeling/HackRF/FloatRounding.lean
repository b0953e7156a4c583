import Mathlib.Tactic
import Mathlib.Data.Int.Log

/-!
# Rounding to a binary floating-point format

Floating-point numbers are taken by their exact values, as rationals.  `fl p`
rounds a rational to the nearest number with `p` significant bits, ties to the
even one.  The exponent is unbounded, so `fl 53` is IEEE 754 double rounding
on the values that neither overflow nor underflow.

Two facts about `fl` are used: numbers with at most `p` significant bits are
not changed, and the relative error is at most `2 ^ (-p)`.  From them follows
when a computed quotient stands on the same side of a threshold as the exact
one.
-/

namespace FloatRounding

/-! ## Rounding to integers -/

/-- The nearest integer, ties to the even one. -/
def roundEven (x : ℚ) : ℤ :=
  if x - ⌊x⌋ < 1 / 2 then ⌊x⌋
  else if 1 / 2 < x - ⌊x⌋ then ⌊x⌋ + 1
  else if ⌊x⌋ % 2 = 0 then ⌊x⌋ else ⌊x⌋ + 1

/-- The nearest integer, ties away from zero. -/
def roundHalfAway (x : ℚ) : ℤ :=
  if 0 ≤ x then ⌊x + 1 / 2⌋ else ⌈x - 1 / 2⌉

theorem abs_roundEven_sub_le (x : ℚ) : |(roundEven x : ℚ) - x| ≤ 1 / 2 := by
  have hfloor : (⌊x⌋ : ℚ) ≤ x := Int.floor_le x
  have hceil : x < ⌊x⌋ + 1 := Int.lt_floor_add_one x
  rw [abs_le]
  unfold roundEven
  split_ifs <;> push_cast <;> constructor <;> linarith

@[simp] theorem roundEven_intCast (n : ℤ) : roundEven (n : ℚ) = n := by
  simp [roundEven]

theorem le_roundHalfAway_iff {x : ℚ} (hx : 0 ≤ x) (n : ℤ) :
    n ≤ roundHalfAway x ↔ (n : ℚ) - 1 / 2 ≤ x := by
  rw [roundHalfAway, if_pos hx, Int.le_floor]
  constructor <;> intro h <;> linarith

/-! ## Rounding to `p` significant bits -/

variable (p : ℕ)

/-- The exponent of the last of the `p` significant bits of `x`. -/
def lastPlace (x : ℚ) : ℤ := Int.log 2 |x| + 1 - p

/-- The nearest number with `p` significant bits, ties to even. -/
def fl (x : ℚ) : ℚ :=
  roundEven (x / 2 ^ lastPlace p x) * 2 ^ lastPlace p x

@[simp] theorem fl_zero : fl p 0 = 0 := by
  have hzero : roundEven 0 = 0 := by simpa using roundEven_intCast 0
  simp [fl, hzero]

theorem two_zpow_lastPlace_le {x : ℚ} (hx : x ≠ 0) :
    (2 : ℚ) ^ lastPlace p x ≤ |x| * 2 * 2 ^ (-(p : ℤ)) := by
  have hlog : ((2 : ℕ) : ℚ) ^ Int.log 2 |x| ≤ |x| :=
    Int.zpow_log_le_self (by norm_num) (abs_pos.mpr hx)
  have hsplit : (2 : ℚ) ^ lastPlace p x =
      2 ^ Int.log 2 |x| * 2 * 2 ^ (-(p : ℤ)) := by
    rw [lastPlace, sub_eq_add_neg, zpow_add₀ two_ne_zero,
      zpow_add₀ two_ne_zero, zpow_one]
  rw [hsplit]
  push_cast at hlog
  gcongr

theorem abs_fl_sub_le (x : ℚ) : |fl p x - x| ≤ |x| * 2 ^ (-(p : ℤ)) := by
  by_cases hx : x = 0
  · simp [hx]
  have hunit : (0 : ℚ) < 2 ^ lastPlace p x := by positivity
  have hdiff : fl p x - x =
      (roundEven (x / 2 ^ lastPlace p x) - x / 2 ^ lastPlace p x) *
        2 ^ lastPlace p x := by
    rw [sub_mul, div_mul_cancel₀ _ hunit.ne', fl]
  calc |fl p x - x|
      = |(roundEven (x / 2 ^ lastPlace p x) : ℚ) - x / 2 ^ lastPlace p x| *
          2 ^ lastPlace p x := by rw [hdiff, abs_mul, abs_of_pos hunit]
    _ ≤ 1 / 2 * 2 ^ lastPlace p x := by
        gcongr
        exact abs_roundEven_sub_le _
    _ ≤ 1 / 2 * (|x| * 2 * 2 ^ (-(p : ℤ))) := by
        gcongr
        exact two_zpow_lastPlace_le p hx
    _ = |x| * 2 ^ (-(p : ℤ)) := by ring

theorem mul_one_sub_le_fl {x : ℚ} (hx : 0 ≤ x) :
    x * (1 - 2 ^ (-(p : ℤ))) ≤ fl p x := by
  have herror := (abs_le.mp (abs_fl_sub_le p x)).1
  rw [abs_of_nonneg hx] at herror
  linarith

theorem fl_le_mul_one_add {x : ℚ} (hx : 0 ≤ x) :
    fl p x ≤ x * (1 + 2 ^ (-(p : ℤ))) := by
  have herror := (abs_le.mp (abs_fl_sub_le p x)).2
  rw [abs_of_nonneg hx] at herror
  linarith

theorem two_zpow_neg_le_half (hp : 1 ≤ p) : (2 : ℚ) ^ (-(p : ℤ)) ≤ 1 / 2 := by
  calc (2 : ℚ) ^ (-(p : ℤ)) ≤ 2 ^ (-1 : ℤ) :=
        zpow_le_zpow_right₀ (by norm_num) (by omega)
    _ = 1 / 2 := by norm_num

theorem half_le_fl (hp : 1 ≤ p) {x : ℚ} (hx : 0 ≤ x) : x / 2 ≤ fl p x := by
  have hunit := two_zpow_neg_le_half p hp
  have hlow := mul_one_sub_le_fl p hx
  nlinarith

theorem fl_nonneg (hp : 1 ≤ p) {x : ℚ} (hx : 0 ≤ x) : 0 ≤ fl p x :=
  le_trans (by positivity) (half_le_fl p hp hx)

theorem fl_pos (hp : 1 ≤ p) {x : ℚ} (hx : 0 < x) : 0 < fl p x :=
  lt_of_lt_of_le (by positivity) (half_le_fl p hp hx.le)

theorem fl_of_significand {m : ℤ} {e : ℤ} (hm : |m| < 2 ^ p) :
    fl p (m * 2 ^ e) = m * 2 ^ e := by
  by_cases hzero : m = 0
  · simp [hzero]
  obtain ⟨x, hx⟩ : ∃ x : ℚ, x = m * 2 ^ e := ⟨_, rfl⟩
  rw [← hx]
  have hm' : |(m : ℚ)| < 2 ^ p := by exact_mod_cast hm
  have habs : |x| = |(m : ℚ)| * 2 ^ e := by
    rw [hx, abs_mul, abs_of_pos (show (0 : ℚ) < 2 ^ e by positivity)]
  have hpos : 0 < |x| := by
    rw [habs]
    have : (m : ℚ) ≠ 0 := by exact_mod_cast hzero
    positivity
  have hlt : |x| < ((2 : ℕ) : ℚ) ^ ((p : ℤ) + e) := by
    rw [habs, Nat.cast_ofNat, zpow_add₀ two_ne_zero, zpow_natCast]
    gcongr
  -- the unit in the last place divides `2 ^ e`
  have hlog : Int.log 2 |x| < p + e :=
    (Int.lt_zpow_iff_log_lt (by norm_num) hpos).mp hlt
  obtain ⟨k, hk⟩ : ∃ k : ℕ, e = lastPlace p x + k :=
    ⟨(e - lastPlace p x).toNat, by unfold lastPlace; omega⟩
  have hunit : (2 : ℚ) ^ lastPlace p x ≠ 0 := by positivity
  have hquot : x / 2 ^ lastPlace p x = ((m * 2 ^ k : ℤ) : ℚ) := by
    rw [div_eq_iff hunit]
    calc x = m * 2 ^ (lastPlace p x + k) := by rw [← hk]; exact hx
      _ = ((m * 2 ^ k : ℤ) : ℚ) * 2 ^ lastPlace p x := by
          rw [zpow_add₀ two_ne_zero, zpow_natCast]
          push_cast
          ring
  rw [fl, hquot, roundEven_intCast, ← hquot, div_mul_cancel₀ _ hunit]

theorem fl_intCast {n : ℤ} (hn : |n| < 2 ^ p) : fl p n = n := by
  simpa using fl_of_significand p (e := 0) hn

theorem fl_halfInteger {n : ℤ} (hn : |n| < 2 ^ p) :
    fl p ((n : ℚ) / 2) = n / 2 := by
  have hhalf : (n : ℚ) / 2 = n * 2 ^ (-1 : ℤ) := by
    rw [zpow_neg_one]
    ring
  rw [hhalf]
  exact fl_of_significand p hn

/-! ## Computed quotients

The quotient of `a` by a rounded `b`, rounded again. -/

theorem abs_fl_div_fl_sub_le (hp : 1 ≤ p) {a b : ℚ} (ha : 0 ≤ a) (hb : 0 < b) :
    |fl p (a / fl p b) - a / b| ≤ 4 * (a / b) * 2 ^ (-(p : ℤ)) := by
  have hupos : (0 : ℚ) < 2 ^ (-(p : ℤ)) := by positivity
  have hdivisor := abs_fl_sub_le p b
  have hquotient := abs_fl_sub_le p (a / fl p b)
  have hlow := half_le_fl p hp hb.le
  have hw := fl_pos p hp hb
  generalize (2 : ℚ) ^ (-(p : ℤ)) = u at *
  generalize fl p b = w at *
  have hwb : b ≤ 2 * w := by linarith
  have hx : 0 ≤ a / b := by positivity
  have hq : 0 ≤ a / w := by positivity
  -- the quotient by `w` against the one by `b`
  have hratio : a / w = a / b * (b / w) := by field_simp
  have hratioLe : b / w ≤ 2 := (div_le_iff₀ hw).mpr hwb
  have hratioClose : |b / w - 1| ≤ 2 * u := by
    rw [div_sub_one hw.ne', abs_div, abs_of_pos hw, div_le_iff₀ hw, abs_sub_comm]
    rw [abs_of_pos hb] at hdivisor
    nlinarith
  calc |fl p (a / w) - a / b|
      ≤ |fl p (a / w) - a / w| + |a / w - a / b| := abs_sub_le _ _ _
    _ ≤ a / w * u + a / b * (2 * u) := by
        apply add_le_add
        · rwa [abs_of_nonneg hq] at hquotient
        · rw [hratio, ← mul_sub_one, abs_mul, abs_of_nonneg hx]
          gcongr
    _ ≤ a / b * 2 * u + a / b * (2 * u) := by
        rw [hratio]
        gcongr
    _ = 4 * (a / b) * u := by ring

/-- A computed quotient is at least the representable threshold `t` exactly if
the exact quotient is, provided that the exact quotient is not so close to `t`
that rounding could carry it across, or that it is `t` and the divisor was
exact. -/
theorem le_fl_div_fl_iff (hp : 1 ≤ p) {a b t : ℚ} (ha : 0 ≤ a) (hb : 0 < b)
    (ht : fl p t = t)
    (hclose : (fl p b = b ∧ a / b = t) ∨
      4 * (a / b) * 2 ^ (-(p : ℤ)) < |a / b - t|) :
    t ≤ fl p (a / fl p b) ↔ t ≤ a / b := by
  rcases hclose with ⟨hexact, hquot⟩ | hfar
  · rw [hexact, hquot, ht]
  · have herror := (abs_fl_div_fl_sub_le p hp ha hb).trans_lt hfar
    rw [abs_lt] at herror
    rcases abs_cases (a / b - t) with ⟨habs, hsign⟩ | ⟨habs, hsign⟩
    · rw [habs] at herror
      constructor <;> intro h <;> linarith [herror.1, herror.2]
    · rw [habs] at herror
      constructor <;> intro h <;> linarith [herror.1, herror.2]

/-- The rounded quotient of two integers is on the same side of an integer as
the exact one, since the exact one is not closer to it than `1 / b`. -/
theorem natCast_le_fl_div_iff {a b : ℕ} (ha : a < 2 ^ p) (hb : 0 < b) (n : ℕ) :
    (n : ℚ) ≤ fl p (a / b) ↔ n * b ≤ a := by
  have hbpos : (0 : ℚ) < b := by exact_mod_cast hb
  have hquot : (a : ℚ) / b * b = a := div_mul_cancel₀ _ hbpos.ne'
  by_cases hsame : n * b = a
  · have hexact : (a : ℚ) / b = n := by
      rw [div_eq_iff hbpos.ne']
      exact_mod_cast hsame.symm
    have hn : n < 2 ^ p :=
      (Nat.le_mul_of_pos_right n hb).trans_lt (hsame ▸ ha)
    have hfl := fl_intCast p (n := n) (by
      rw [abs_of_nonneg (by omega)]
      exact_mod_cast hn)
    rw [Int.cast_natCast] at hfl
    rw [hexact, hfl]
    exact iff_of_true le_rfl hsame.le
  have herror : |fl p (a / b) - a / b| * b < 1 := by
    calc |fl p (a / b) - a / b| * b
        ≤ |(a : ℚ) / b| * 2 ^ (-(p : ℤ)) * b := by
          gcongr
          exact abs_fl_sub_le p _
      _ = a * 2 ^ (-(p : ℤ)) := by
          rw [abs_of_nonneg (by positivity), mul_right_comm, hquot]
      _ < 2 ^ p * 2 ^ (-(p : ℤ)) := by
          gcongr
          exact_mod_cast ha
      _ = 1 := by
          rw [← zpow_natCast, ← zpow_add₀ two_ne_zero, add_neg_cancel,
            zpow_zero]
  have hlow := (abs_le.mp (le_refl |fl p (a / b) - (a : ℚ) / b|)).1
  have hhigh := le_abs_self (fl p (a / b) - (a : ℚ) / b)
  rcases Nat.lt_or_gt_of_ne hsame with hbelow | habove
  · refine iff_of_true ?_ hbelow.le
    have hgap : (n : ℚ) * b + 1 ≤ a := by exact_mod_cast hbelow
    refine le_of_mul_le_mul_right ?_ hbpos
    nlinarith
  · refine iff_of_false ?_ (by omega)
    have hgap : (a : ℚ) + 1 ≤ n * b := by exact_mod_cast habove
    refine not_le.mpr (lt_of_mul_lt_mul_right ?_ hbpos.le)
    nlinarith

/-- Truncating the rounded quotient of two integers is integer division. -/
theorem floor_fl_div {a b : ℕ} (ha : a < 2 ^ p) (hb : 0 < b) :
    ⌊fl p (a / b)⌋ = (a / b : ℕ) := by
  rw [Int.floor_eq_iff, Int.cast_natCast]
  have hbelow := natCast_le_fl_div_iff p ha hb (a / b)
  have hnext := natCast_le_fl_div_iff p ha hb (a / b + 1)
  constructor
  · exact hbelow.mpr (Nat.div_mul_le_self a b)
  · have hpast : a < (a / b + 1) * b := by
      rw [Nat.mul_comm]
      exact Nat.lt_mul_div_succ a hb
    push_cast at hnext
    exact not_le.mp (mt hnext.mp (by omega))

/-! ## Bit patterns -/

/-- The bit pattern of a positive normal double: its biased exponent, and below
it the 52 bits of its significand after the leading one. -/
def doubleBits (x : ℚ) : ℕ :=
  (Int.log 2 x + 1023).toNat * 2 ^ 52 + ⌊(x / 2 ^ Int.log 2 x - 1) * 2 ^ 52⌋₊

theorem log_of_significand {n : ℕ} {e : ℤ} (hlow : 2 ^ 52 ≤ n)
    (hhigh : n < 2 ^ 53) : Int.log 2 ((n : ℚ) * 2 ^ (e - 52)) = e := by
  have hunit : (0 : ℚ) < 2 ^ (e - 52) := by positivity
  have hpos : (0 : ℚ) < n * 2 ^ (e - 52) := by
    have hn : (0 : ℚ) < n := by exact_mod_cast (Nat.two_pow_pos 52).trans_le hlow
    positivity
  have hle : ((2 : ℕ) : ℚ) ^ e ≤ n * 2 ^ (e - 52) := by
    calc ((2 : ℕ) : ℚ) ^ e = 2 ^ (52 : ℕ) * 2 ^ (e - 52) := by
          rw [Nat.cast_ofNat, ← zpow_natCast, ← zpow_add₀ two_ne_zero]
          congr 1
          push_cast
          ring
      _ ≤ n * 2 ^ (e - 52) := by
          gcongr
          exact_mod_cast hlow
  have hlt : (n : ℚ) * 2 ^ (e - 52) < ((2 : ℕ) : ℚ) ^ (e + 1) := by
    calc (n : ℚ) * 2 ^ (e - 52) < 2 ^ (53 : ℕ) * 2 ^ (e - 52) := by
          gcongr
          exact_mod_cast hhigh
      _ = ((2 : ℕ) : ℚ) ^ (e + 1) := by
          rw [Nat.cast_ofNat, ← zpow_natCast, ← zpow_add₀ two_ne_zero]
          congr 1
          push_cast
          ring
  have habove := (Int.zpow_le_iff_le_log (by norm_num) hpos).mp hle
  have hbelow := (Int.lt_zpow_iff_log_lt (by norm_num) hpos).mp hlt
  omega

theorem doubleBits_of_significand {n : ℕ} {e : ℤ} (hlow : 2 ^ 52 ≤ n)
    (hhigh : n < 2 ^ 53) :
    doubleBits (n * 2 ^ (e - 52)) =
      (e + 1023).toNat * 2 ^ 52 + (n - 2 ^ 52) := by
  have hfraction : ((n : ℚ) * 2 ^ (e - 52) / 2 ^ e - 1) * 2 ^ 52 =
      ((n - 2 ^ 52 : ℕ) : ℚ) := by
    have hscale : (2 : ℚ) ^ (e - 52) / 2 ^ e * 2 ^ 52 = 1 := by
      rw [← zpow_sub₀ two_ne_zero, sub_sub_cancel_left, ← zpow_natCast,
        ← zpow_add₀ two_ne_zero]
      norm_num
    rw [Nat.cast_sub hlow]
    push_cast
    calc ((n : ℚ) * 2 ^ (e - 52) / 2 ^ e - 1) * 2 ^ 52
        = (n : ℚ) * (2 ^ (e - 52) / 2 ^ e * 2 ^ 52) - 2 ^ 52 := by ring
      _ = (n : ℚ) - 2 ^ 52 := by rw [hscale, mul_one]
  rw [doubleBits, log_of_significand hlow hhigh, hfraction, Nat.floor_natCast]

end FloatRounding
