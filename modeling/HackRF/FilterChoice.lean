import HackRF.HostByteOrder

/-!
# The automatic choice of the baseband filter

Setting the sample rate also sets the baseband filter, to the widest setting
of at most three quarters of the rate.  The two functions which look a setting
up scan the table in the same way, and differ in the step back: only
`hackrf_compute_baseband_filter_bw_round_down_lt` steps back from the entry
which ends the table.
-/

namespace HackRF

open ByteMemory FloatRounding

def hackrfComputeBasebandFilterBwRoundDownLt (bandwidthHz : ℕ) : ℕ :=
  let p := max2837Ft.findIdx fun bandwidth =>
    bandwidth == 0 || bandwidthHz ≤ bandwidth
  if p ≠ 0 then max2837Ft.getD (p - 1) 0 else max2837Ft.getD p 0

/-! ## The largest entry of a sorted table -/

section SortedTable

variable {entry : ℕ → ℕ} {n k limit : ℕ}

/-- The entry before the first one above a limit is the largest one up to
it. -/
theorem isGreatest_of_stop (hmono : ∀ i j, i < j → j < n → entry i < entry j)
    (hpos : 0 < k) (hk : k ≤ n) (hbelow : ∀ i < k, entry i ≤ limit)
    (habove : k < n → limit < entry k) :
    IsGreatest {bandwidth | (∃ i < n, entry i = bandwidth) ∧
      bandwidth ≤ limit} (entry (k - 1)) := by
  refine ⟨⟨⟨k - 1, by omega, rfl⟩, hbelow _ (by omega)⟩, ?_⟩
  rintro bandwidth ⟨⟨i, hi, rfl⟩, hlimit⟩
  by_cases hbefore : i < k
  · rcases Nat.lt_or_eq_of_le (Nat.le_sub_one_of_lt hbefore) with hlt | rfl
    · exact (hmono i (k - 1) hlt (by omega)).le
    · exact le_rfl
  · have hstop := habove (by omega)
    rcases Nat.lt_or_eq_of_le (Nat.not_lt.mp hbefore) with hlt | rfl
    · have hlarger := hmono k i hlt hi
      omega
    · omega

end SortedTable

/-! ## The table -/

/-- The number of settings, without the entry which ends the table. -/
def filterCount : ℕ := 16

def filterEntry (i : ℕ) : ℕ := max2837Ft.getD i 0

def settingsUpTo (limit : ℚ) : Set ℕ :=
  {bandwidth | (∃ i < filterCount, filterEntry i = bandwidth) ∧
    (bandwidth : ℚ) ≤ limit}

/-- The largest setting up to a limit, or the smallest one if there is none. -/
def WidestUpTo (limit : ℚ) (bandwidth : ℕ) : Prop :=
  IsGreatest (settingsUpTo limit) bandwidth ∨
    settingsUpTo limit = ∅ ∧ bandwidth = 1750000

theorem filterEntry_mono :
    ∀ i j, i < j → j < filterCount → filterEntry i < filterEntry j := by
  have hsteps : ∀ j < filterCount, ∀ i < j, filterEntry i < filterEntry j := by
    decide
  exact fun i j hij hj => hsteps j hj i hij

def filterStop (bandwidthHz : ℕ) : ℕ :=
  max2837Ft.findIdx fun bandwidth => bandwidth == 0 || bandwidthHz ≤ bandwidth

theorem filterStop_le (bandwidthHz : ℕ) :
    filterStop bandwidthHz ≤ filterCount := by
  have hsentinel : filterStop bandwidthHz < max2837Ft.length :=
    List.findIdx_lt_length_of_exists ⟨0, by decide, rfl⟩
  exact Nat.le_of_lt_succ hsentinel

theorem filterEntry_eq {i : ℕ} (hi : i < max2837Ft.length) :
    filterEntry i = max2837Ft[i] := by
  rw [filterEntry, List.getD_eq_getElem?_getD, List.getElem?_eq_getElem hi]
  rfl

theorem filterEntry_lt_of_lt_stop {bandwidthHz i : ℕ}
    (hi : i < filterStop bandwidthHz) : filterEntry i < bandwidthHz := by
  have hlength : i < max2837Ft.length :=
    hi.trans_le ((filterStop_le _).trans (by decide))
  have hpassed := List.not_of_lt_findIdx hi
  rw [Bool.or_eq_false_iff, decide_eq_false_iff_not, not_le] at hpassed
  rw [filterEntry_eq hlength]
  exact hpassed.2

theorem le_filterEntry_stop {bandwidthHz : ℕ}
    (hstop : filterStop bandwidthHz < filterCount) :
    bandwidthHz ≤ filterEntry (filterStop bandwidthHz) := by
  have hlength : filterStop bandwidthHz < max2837Ft.length :=
    hstop.trans (by decide)
  have hnonzero : ∀ i < filterCount, filterEntry i ≠ 0 := by decide
  have hentry := hnonzero _ hstop
  have hfound := List.findIdx_getElem (w := hlength)
  rw [filterEntry_eq hlength] at hentry ⊢
  rw [Bool.or_eq_true, beq_iff_eq, decide_eq_true_eq] at hfound
  exact hfound.resolve_left hentry

/-! ## The two functions -/

theorem settingsUpTo_natCast (limit : ℕ) :
    settingsUpTo limit =
      {bandwidth | (∃ i < filterCount, filterEntry i = bandwidth) ∧
        bandwidth ≤ limit} := by
  simp [settingsUpTo]

/-- What is chosen at a stop where everything before is up to a limit and the
entry itself is above it. -/
theorem widestUpTo_of_stop {k limit : ℕ} (hk : k ≤ filterCount)
    (hbelow : ∀ i < k, filterEntry i ≤ limit)
    (habove : k < filterCount → limit < filterEntry k) :
    WidestUpTo limit (if k ≠ 0 then filterEntry (k - 1) else filterEntry k) := by
  by_cases hzero : k = 0
  · refine .inr ⟨?_, by rw [if_neg (not_not.mpr hzero), hzero]; rfl⟩
    rw [settingsUpTo_natCast, Set.eq_empty_iff_forall_notMem]
    rintro bandwidth ⟨⟨i, hi, rfl⟩, hlimit⟩
    have hfirst := habove (by rw [hzero]; decide)
    rw [hzero] at hfirst
    rcases Nat.eq_zero_or_pos i with rfl | hpos
    · omega
    · have hlarger := filterEntry_mono 0 i hpos hi
      omega
  · refine .inl ?_
    rw [settingsUpTo_natCast, if_pos hzero]
    exact isGreatest_of_stop filterEntry_mono (Nat.pos_of_ne_zero hzero) hk
      hbelow habove

theorem WidestUpTo.unique {limit : ℚ} {first second : ℕ}
    (hfirst : WidestUpTo limit first) (hsecond : WidestUpTo limit second) :
    first = second := by
  rcases hfirst with hfirst | ⟨hempty, rfl⟩
  · rcases hsecond with hsecond | ⟨hempty, -⟩
    · exact hfirst.unique hsecond
    · exact absurd hfirst.1 (hempty ▸ Set.notMem_empty _)
  · rcases hsecond with hsecond | ⟨-, rfl⟩
    · exact absurd hsecond.1 (hempty ▸ Set.notMem_empty _)
    · rfl

theorem WidestUpTo.ne_zero {limit : ℚ} {bandwidth : ℕ}
    (hwidest : WidestUpTo limit bandwidth) : bandwidth ≠ 0 := by
  have hnonzero : ∀ i < filterCount, filterEntry i ≠ 0 := by decide
  rcases hwidest with ⟨⟨⟨i, hi, rfl⟩, -⟩, -⟩ | ⟨-, rfl⟩
  · exact hnonzero i hi
  · decide

theorem hackrfComputeBasebandFilterBwRoundDownLt_widest (limit : ℕ) :
    WidestUpTo limit
      (hackrfComputeBasebandFilterBwRoundDownLt (limit + 1)) :=
  widestUpTo_of_stop (filterStop_le _)
    (fun _ hi => Nat.le_of_lt_succ (filterEntry_lt_of_lt_stop hi))
    fun hstop => le_filterEntry_stop hstop

/-- Past the last setting the scan ends at the zero which ends the table, and
that is returned. -/
theorem hackrfComputeBasebandFilterBw_widest_iff (limit : ℕ) :
    WidestUpTo limit (hackrfComputeBasebandFilterBw limit) ↔
      limit ≤ 28000000 := by
  have hcompute : hackrfComputeBasebandFilterBw limit =
      if filterStop limit ≠ 0 ∧ filterEntry (filterStop limit) > limit then
        filterEntry (filterStop limit - 1)
      else filterEntry (filterStop limit) := rfl
  have hlast : filterEntry 15 = 28000000 := rfl
  rw [hcompute]
  rcases Nat.lt_or_eq_of_le (filterStop_le limit) with hstop | hend
  · have hle := le_filterEntry_stop hstop
    have hbound : limit ≤ 28000000 := by
      rcases Nat.lt_or_eq_of_le (Nat.le_of_lt_succ hstop) with hlt | hfifteen
      · have hlarger := filterEntry_mono _ 15 hlt (by decide)
        omega
      · rwa [hfifteen] at hle
    refine iff_of_true ?_ hbound
    rcases Nat.lt_or_eq_of_le hle with hlt | hsame
    · simp only [gt_iff_lt, hlt, and_true]
      exact widestUpTo_of_stop hstop.le
        (fun _ hi => (filterEntry_lt_of_lt_stop hi).le) fun _ => hlt
    · rw [if_neg (by omega)]
      refine .inl ⟨⟨⟨_, hstop, rfl⟩, by rw [← hsame]⟩, ?_⟩
      rintro bandwidth ⟨-, hlimit⟩
      rw [← hsame]
      exact_mod_cast hlimit
  · have hzero : filterEntry filterCount = 0 := rfl
    have hpast : 28000000 < limit := by
      rw [← hlast]
      exact filterEntry_lt_of_lt_stop (by rw [hend]; decide)
    rw [hend, hzero, if_neg (by omega)]
    exact iff_of_false (fun hwidest => hwidest.ne_zero rfl) (by omega)

/-! ## Three quarters of the rate -/

/-- The exact bandwidth, three quarters of `freqHz / divider`. -/
def threeQuarters (freqHz divider : UInt32) : ℚ :=
  3 * freqHz.toNat / (4 * divider.toNat)

theorem natCast_le_threeQuarters_iff {freqHz divider : UInt32}
    (hdivider : 1 ≤ divider.toNat) {n : ℕ} :
    (n : ℚ) ≤ threeQuarters freqHz divider ↔
      n ≤ 3 * freqHz.toNat / (4 * divider.toNat) := by
  have hpos : (0 : ℚ) < 4 * divider.toNat := by
    have hcast : (1 : ℚ) ≤ divider.toNat := by exact_mod_cast hdivider
    linarith
  rw [threeQuarters, le_div_iff₀ hpos, Nat.le_div_iff_mul_le (by omega)]
  exact_mod_cast Iff.rfl

/-- The bandwidth looked up is the whole part of the exact one. -/
theorem filterBandwidth_eq (undefined : UInt32) {freqHz divider : UInt32}
    (hdivider : 1 ≤ divider.toNat) :
    filterBandwidth undefined freqHz divider =
      3 * freqHz.toNat / (4 * divider.toNat) := by
  have hfreq := freqHz.toNat_lt
  have hnonzero : divider ≠ 0 := by
    rintro rfl
    exact absurd hdivider (by decide)
  have hproduct : fl 53 (3 / 4 * freqHz.toNat) = 3 / 4 * freqHz.toNat := by
    have hsignificand : (3 / 4 * freqHz.toNat : ℚ) =
        ((3 * freqHz.toNat : ℤ) : ℚ) * 2 ^ (-2 : ℤ) := by
      push_cast
      ring
    rw [hsignificand]
    exact fl_of_significand 53 (by rw [abs_of_nonneg (by omega)]; omega)
  have hquotient : (3 / 4 * freqHz.toNat / divider.toNat : ℚ) =
      (3 * freqHz.toNat : ℕ) / (4 * divider.toNat : ℕ) := by
    push_cast
    field_simp
  rw [filterBandwidth, if_neg hnonzero, hproduct, hquotient,
    floor_fl_div 53 (by omega) (by omega), Int.toNat_natCast]

theorem settingsUpTo_threeQuarters {freqHz divider : UInt32}
    (hdivider : 1 ≤ divider.toNat) :
    settingsUpTo (threeQuarters freqHz divider) =
      settingsUpTo (3 * freqHz.toNat / (4 * divider.toNat) : ℕ) := by
  rw [settingsUpTo_natCast]
  unfold settingsUpTo
  simp only [natCast_le_threeQuarters_iff hdivider]

/-! ## The call -/

def sampleRateRequest (host : ByteOrder) (stack : Memory)
    (freqHz divider : UInt32) : ControlOut :=
  ⟨.sampleRateSet, 0, 0, image 8 (store host 4 4 (toLe host divider.toNat)
    (store host 4 0 (toLe host freqHz.toNat) stack))⟩

/-- After the sample rate, the widest setting of at most three quarters of it is
set. -/
def SetsWidest (host : ByteOrder) (usb : Usb) (stack : Memory)
    (undefined freqHz divider : UInt32) (s : ControlState) : Prop :=
  ∃ bandwidth, WidestUpTo (threeQuarters freqHz divider) bandwidth ∧
    hackrfSetSampleRateManual host usb stack undefined freqHz divider s =
      hackrfSetBasebandFilterBandwidth usb bandwidth
        { s with
          sent := s.sent ++ [sampleRateRequest host stack freqHz divider] }

theorem hackrfSetSampleRateManual_eq {host : ByteOrder} {usb : Usb}
    {stack : Memory} {undefined freqHz divider : UInt32} {s : ControlState}
    (hdivider : 1 ≤ divider.toNat)
    (hsuccess : 8 ≤ usb.send (sampleRateRequest host stack freqHz divider)) :
    hackrfSetSampleRateManual host usb stack undefined freqHz divider s =
      hackrfSetBasebandFilterBandwidth usb
        (hackrfComputeBasebandFilterBw
          (3 * freqHz.toNat / (4 * divider.toNat)))
        { s with
          sent := s.sent ++ [sampleRateRequest host stack freqHz divider] } := by
  have hrate : sendRequest usb (· < ((8 : ℕ) : ℤ))
      (sampleRateRequest host stack freqHz divider) s =
      (.success, { s with
        sent := s.sent ++ [sampleRateRequest host stack freqHz divider] }) := by
    unfold sendRequest
    rw [if_neg (by simpa using hsuccess)]
  rw [← filterBandwidth_eq undefined hdivider]
  unfold hackrfSetSampleRateManual
  unfold sampleRateRequest at hrate
  dsimp only
  rw [hrate]
  rfl

theorem hackrfSetBasebandFilterBandwidth_inj {usb : Usb} {s : ControlState}
    {first second : ℕ}
    (hsame : hackrfSetBasebandFilterBandwidth usb first s =
      hackrfSetBasebandFilterBandwidth usb second s) : first = second := by
  have hsent := congrArg (fun result => result.2.sent) hsame
  simp only [hackrfSetBasebandFilterBandwidth, sendRequest_sent,
    List.append_cancel_left_eq, List.singleton_inj, ControlOut.mk.injEq,
    true_and, and_true] at hsent
  obtain ⟨hlow, hhigh⟩ := hsent
  rw [← Nat.div_add_mod first (2 ^ 16), hlow, hhigh, Nat.div_add_mod]

theorem setsWidest_iff {host : ByteOrder} {usb : Usb} {stack : Memory}
    {undefined freqHz divider : UInt32} {s : ControlState}
    (hdivider : 1 ≤ divider.toNat)
    (hsuccess : 8 ≤ usb.send (sampleRateRequest host stack freqHz divider)) :
    SetsWidest host usb stack undefined freqHz divider s ↔
      3 * freqHz.toNat / (4 * divider.toNat) ≤ 28000000 := by
  have hsettings :=
    @settingsUpTo_threeQuarters freqHz divider hdivider
  rw [← hackrfComputeBasebandFilterBw_widest_iff]
  unfold SetsWidest
  rw [hackrfSetSampleRateManual_eq hdivider hsuccess]
  unfold WidestUpTo
  rw [hsettings]
  constructor
  · rintro ⟨bandwidth, hwidest, hcall⟩
    have hsame := hackrfSetBasebandFilterBandwidth_inj hcall
    rwa [hsame]
  · intro hwidest
    exact ⟨_, hwidest, rfl⟩

/-- The filter is right as long as three quarters of the rate do not reach one
hertz past the last setting, and so far the two functions agree. -/
theorem setsWidest_and_agree_iff (host : ByteOrder) (usb : Usb)
    (stack : Memory) (undefined : UInt32) (s : ControlState)
    (freqHz divider : UInt32) (hdivider : 1 ≤ divider.toNat)
    (hsuccess : 8 ≤ usb.send (sampleRateRequest host stack freqHz divider))
    (b : ℕ) :
    (SetsWidest host usb stack undefined freqHz divider s ↔
      3 * freqHz.toNat < 28000001 * (4 * divider.toNat)) ∧
    (hackrfComputeBasebandFilterBw b =
        hackrfComputeBasebandFilterBwRoundDownLt (b + 1) ↔
      b ≤ 28000000) := by
  constructor
  · rw [setsWidest_iff hdivider hsuccess, ← Nat.lt_succ_iff,
      Nat.div_lt_iff_lt_mul (by omega)]
  · have hlt := hackrfComputeBasebandFilterBwRoundDownLt_widest b
    rw [← hackrfComputeBasebandFilterBw_widest_iff]
    constructor
    · intro hsame
      rwa [hsame]
    · intro hwidest
      exact hwidest.unique hlt

theorem setsWidest_and_agree_twenty :
    (SetsWidest .little obligingUsb (fun _ => 0) 0 20000000 1 ⟨0, []⟩ ↔
      3 * (20000000 : UInt32).toNat < 28000001 * (4 * (1 : UInt32).toNat)) ∧
    (hackrfComputeBasebandFilterBw 15000000 =
        hackrfComputeBasebandFilterBwRoundDownLt (15000000 + 1) ↔
      15000000 ≤ 28000000) :=
  setsWidest_and_agree_iff .little obligingUsb (fun _ => 0) 0 ⟨0, []⟩ 20000000 1
    (by decide) (by decide) 15000000

/-- At 40 MHz the bandwidth passed is zero, the end of the table. -/
theorem setsWidest_fails_forty :
    8 ≤ obligingUsb.send (sampleRateRequest .little (fun _ => 0) 40000000 1) ∧
      ¬ SetsWidest .little obligingUsb (fun _ => 0) 0 40000000 1 ⟨0, []⟩ ∧
      hackrfComputeBasebandFilterBw 30000000 = 0 ∧
      hackrfComputeBasebandFilterBwRoundDownLt (30000000 + 1) = 28000000 := by
  refine ⟨by decide, ?_, by decide, by decide⟩
  rw [setsWidest_iff (by decide) (by decide)]
  decide

end HackRF
