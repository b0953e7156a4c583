import HackRF.SweepHistory

/-!
# The ranges over a run

Every call of `hackrf_sweep` which passes the range checks appends its range to
`frequencies` and plans all ranges anew.  Planning takes the upper end of a
range to the next whole number of tuning steps; what is planned already stays
as it is.  The number of ranges and their ends stay in their bounds whatever
the calls are.
-/

namespace HackRF.Sweep

variable {F : Type*}

namespace Globals

/-! ## What is promised -/

/-- The elements of `frequencies` which a call assigns, in order: those of the
range it appends, and the upper ends of all ranges if it gets as far as the
planning loop. -/
def frequencyWrites (ops : SweepOps F) (args : HackrfSweepArgs)
    (globals : Globals F) : List ℕ :=
  match globals.checkRange args with
  | .error _ => []
  | .ok next =>
      -- the second store of a range is not reached after the first one
      [2 * globals.numRanges, 2 * globals.numRanges + 1] ++
        match (next.checkOptions ops args).1 with
        | .error _ => []
        | .ok _ => (List.range next.numRanges).map (2 * · + 1)

/-- The planning loop takes the ranges of one state to those of another. -/
structure Plans (before after : Globals F) : Prop where
  numRanges : after.numRanges = before.numRanges
  lo : ∀ k < before.numRanges,
    after.frequencies (2 * k) = before.frequencies (2 * k)
  hi : ∀ k < before.numRanges,
    IsLeast {hi : ℕ | (before.frequencies (2 * k + 1)).toNat ≤ hi ∧
        ∃ steps > 0, hi =
          (before.frequencies (2 * k)).toNat + steps * tuneStep}
      (after.frequencies (2 * k + 1)).toNat
  again : after.planRanges = after
  stepCount : ∀ last, last + 1 = after.numRanges →
    after.stepCount.toInt * tuneStep =
      (after.frequencies (2 * last + 1)).toNat -
        (after.frequencies (2 * last)).toNat

/-- The stored ranges are in order and within bounds, and the next call, with
whatever arguments, writes within bounds and plans its ranges right. -/
structure PlansRanges (ops : SweepOps F) (globals : Globals F) : Prop where
  count : globals.numRanges ≤ maxSweepRanges
  ordered : ∀ k < globals.numRanges,
    globals.frequencies (2 * k) < globals.frequencies (2 * k + 1)
  inBounds : ∀ args, ∀ i ∈ globals.frequencyWrites ops args,
    i < 2 * maxSweepRanges
  planned : ∀ args fftSize,
    (globals.checkArguments ops args).1 = .ok fftSize →
      (globals.checkArguments ops args).2.Plans (globals.prepared ops args)

/-! ## One range -/

/-- The end of a range after planning: a whole number of steps, at least one,
from its beginning. -/
def plannedEnd (lo hi : ℕ) : ℕ :=
  lo + (1 + (hi - lo - 1) / tuneStep) * tuneStep

theorem le_plannedEnd (lo hi : ℕ) : hi ≤ plannedEnd lo hi := by
  unfold plannedEnd tuneStep defaultSampleRateHz freqOneMhz
  omega

theorem lt_plannedEnd (lo hi : ℕ) : lo < plannedEnd lo hi := by
  unfold plannedEnd tuneStep defaultSampleRateHz freqOneMhz
  omega

theorem plannedEnd_plannedEnd (lo hi : ℕ) :
    plannedEnd lo (plannedEnd lo hi) = plannedEnd lo hi := by
  unfold plannedEnd tuneStep defaultSampleRateHz freqOneMhz
  omega

theorem isLeast_plannedEnd {lo hi : ℕ} (hlt : lo < hi) :
    IsLeast {end' : ℕ | hi ≤ end' ∧ ∃ steps > 0, end' = lo + steps * tuneStep}
      (plannedEnd lo hi) := by
  refine ⟨⟨le_plannedEnd lo hi, 1 + (hi - lo - 1) / tuneStep,
    Nat.add_pos_left Nat.one_pos _, rfl⟩, ?_⟩
  · rintro end' ⟨hle, steps, hpos, rfl⟩
    unfold plannedEnd tuneStep defaultSampleRateHz freqOneMhz at *
    omega

/-- A range which can be planned without leaving 16 bits. -/
structure Plannable (lo hi : UInt16) : Prop where
  lt : lo < hi
  fits : plannedEnd lo.toNat hi.toNat < 2 ^ 16

theorem Plannable.of_range (range : SweepRange) :
    Plannable range.lo range.hi := by
  refine ⟨range.lo_lt_hi, ?_⟩
  have hplanned := range.plannedHi_toNat
  rw [SweepRange.stepCount] at hplanned
  have hsize := range.plannedHi.toNat_lt
  rw [hplanned] at hsize
  exact hsize

/-! ## The planning loop -/

section Loop

variable {globals : Globals F}

theorem planRange_hi {i : ℕ}
    (hplan : Plannable (globals.frequencies (2 * i))
      (globals.frequencies (2 * i + 1))) :
    ((globals.planRange i).frequencies (2 * i + 1)).toNat =
      plannedEnd (globals.frequencies (2 * i)).toNat
        (globals.frequencies (2 * i + 1)).toNat := by
  have hstored := plannedEnd_toNat hplan.lt hplan.fits
  unfold planRange
  dsimp only
  rw [Function.update_self]
  exact hstored

theorem toInt_toInt32_of_lt {steps : UInt64} (hlt : steps.toNat < 2 ^ 31) :
    steps.toUInt32.toInt32.toInt = steps.toNat := by
  have hsmall : steps.toUInt32.toNat = steps.toNat := by
    rw [UInt64.toNat_toUInt32]
    omega
  have hint : steps.toUInt32.toInt32.toInt =
      steps.toUInt32.toBitVec.toInt := rfl
  rw [hint, BitVec.toInt_eq_toNat_of_lt, UInt32.toNat_toBitVec, hsmall]
  rw [UInt32.toNat_toBitVec, hsmall]
  omega

theorem planRange_stepCount {i : ℕ}
    (hlt : globals.frequencies (2 * i) < globals.frequencies (2 * i + 1)) :
    (globals.planRange i).stepCount.toInt =
      (1 + ((globals.frequencies (2 * i + 1)).toNat -
        (globals.frequencies (2 * i)).toNat - 1) / tuneStep : ℕ) := by
  have hsteps := plannedSteps_toNat hlt
  have hsize := (globals.frequencies (2 * i + 1)).toNat_lt
  rw [← hsteps]
  apply toInt_toInt32_of_lt
  rw [hsteps]
  unfold tuneStep defaultSampleRateHz freqOneMhz
  omega

/-- What the first `n` iterations of the planning loop have done. -/
structure PlannedFirst (n : ℕ) (before after : Globals F) : Prop where
  lo : ∀ k, after.frequencies (2 * k) = before.frequencies (2 * k)
  hi : ∀ k < n, (after.frequencies (2 * k + 1)).toNat =
    plannedEnd (before.frequencies (2 * k)).toNat
      (before.frequencies (2 * k + 1)).toNat
  rest : ∀ k, n ≤ k →
    after.frequencies (2 * k + 1) = before.frequencies (2 * k + 1)
  stepCount : ∀ last, last + 1 = n → after.stepCount.toInt * tuneStep =
    (plannedEnd (before.frequencies (2 * last)).toNat
      (before.frequencies (2 * last + 1)).toNat : ℤ) -
        (before.frequencies (2 * last)).toNat

theorem foldl_planRange {n : ℕ}
    (hplan : ∀ k < n, Plannable (globals.frequencies (2 * k))
      (globals.frequencies (2 * k + 1))) :
    PlannedFirst n globals ((List.range n).foldl planRange globals) := by
  induction n with
  | zero =>
      refine ⟨fun _ => rfl, ?_, fun _ _ => rfl, ?_⟩
      · intro k hk
        omega
      · intro last hlast
        omega
  | succ n ih =>
      obtain ⟨hlo, hhi, hrest, -⟩ := ih fun k hk => hplan k (by omega)
      have hlast := hplan n n.lt_succ_self
      rw [List.range_succ, List.foldl_append, List.foldl_cons, List.foldl_nil]
      generalize (List.range n).foldl planRange globals = planned at *
      have hsame : Plannable (planned.frequencies (2 * n))
          (planned.frequencies (2 * n + 1)) := by
        rw [hlo, hrest n le_rfl]
        exact hlast
      constructor
      · intro k
        rw [planRange_frequencies_of_ne (by omega), hlo]
      · intro k hk
        by_cases hkn : k = n
        · subst k
          rw [planRange_hi hsame, hlo, hrest n le_rfl]
        · rw [planRange_frequencies_of_ne (by omega), hhi k (by omega)]
      · intro k hk
        rw [planRange_frequencies_of_ne (by omega), hrest k (by omega)]
      · intro last hlastn
        obtain rfl : last = n := by omega
        rw [planRange_stepCount hsame.lt, hlo, hrest last le_rfl]
        unfold plannedEnd
        push_cast
        ring

end Loop

/-- The ranges which are stored can be planned. -/
structure RangesSound (globals : Globals F) : Prop where
  count : globals.numRanges ≤ maxSweepRanges
  plannable : ∀ k < globals.numRanges,
    Plannable (globals.frequencies (2 * k)) (globals.frequencies (2 * k + 1))

section Sound

variable {globals next : Globals F}

theorem RangesSound.congr (hsound : globals.RangesSound)
    (hranges : next.numRanges = globals.numRanges)
    (hfrequencies : next.frequencies = globals.frequencies) :
    next.RangesSound := by
  constructor
  · rw [hranges]
    exact hsound.count
  · rw [hranges, hfrequencies]
    exact hsound.plannable

theorem RangesSound.appendRange (hsound : globals.RangesSound)
    (hroom : globals.numRanges < maxSweepRanges) (range : SweepRange) :
    (globals.appendRange range.lo range.hi).RangesSound := by
  refine ⟨hroom, ?_⟩
  intro k hk
  have hle : k ≤ globals.numRanges := Nat.le_of_lt_succ hk
  unfold Globals.appendRange
  dsimp only
  by_cases hlast : k = globals.numRanges
  · subst k
    rw [Function.update_self, Function.update_of_ne (by omega),
      Function.update_self]
    exact Plannable.of_range range
  · rw [Function.update_of_ne (by omega), Function.update_of_ne (by omega),
      Function.update_of_ne (by omega), Function.update_of_ne (by omega)]
    exact hsound.plannable k (by omega)

theorem planRanges_numRanges (globals : Globals F) :
    globals.planRanges.numRanges = globals.numRanges := by
  obtain ⟨stepCount, frequencies, hplan⟩ := globals.planRanges_frame
  rw [hplan]

theorem RangesSound.plannedFirst (hsound : globals.RangesSound) :
    PlannedFirst globals.numRanges globals globals.planRanges :=
  foldl_planRange hsound.plannable

theorem RangesSound.planRanges (hsound : globals.RangesSound) :
    globals.planRanges.RangesSound := by
  have hplanned := hsound.plannedFirst
  constructor
  · rw [planRanges_numRanges]
    exact hsound.count
  · intro k hk
    rw [planRanges_numRanges] at hk
    have hfits := (hsound.plannable k hk).fits
    have hlt := lt_plannedEnd (globals.frequencies (2 * k)).toNat
      (globals.frequencies (2 * k + 1)).toNat
    rw [hplanned.lo]
    constructor
    · rw [UInt16.lt_iff_toNat_lt, hplanned.hi k hk]
      exact hlt
    · rw [hplanned.hi k hk, plannedEnd_plannedEnd]
      exact hfits

/-- Ranges which have been planned are not changed by planning them again. -/
theorem RangesSound.planRanges_planRanges (hsound : globals.RangesSound) :
    globals.planRanges.planRanges = globals.planRanges := by
  have hfirst := hsound.plannedFirst
  have hagain := hsound.planRanges.plannedFirst
  have hranges := globals.planRanges_numRanges
  generalize globals.planRanges = planned at *
  obtain ⟨stepCount, frequencies, hplan⟩ := planned.planRanges_frame
  have hstart : ∀ k, (planned.planRanges).frequencies (2 * k) =
      planned.frequencies (2 * k) := hagain.lo
  have hend : ∀ k, (planned.planRanges).frequencies (2 * k + 1) =
      planned.frequencies (2 * k + 1) := by
    intro k
    by_cases hk : k < planned.numRanges
    · have hk' : k < globals.numRanges := hranges ▸ hk
      rw [← UInt16.toNat_inj, hagain.hi k hk, hfirst.lo, hfirst.hi k hk',
        plannedEnd_plannedEnd]
    · exact hagain.rest k (by omega)
  have hfrequencies : (planned.planRanges).frequencies =
      planned.frequencies := by
    funext i
    rcases Nat.even_or_odd' i with ⟨k, rfl | rfl⟩
    · exact hstart k
    · exact hend k
  have hstepCount : (planned.planRanges).stepCount = planned.stepCount := by
    cases hcount : globals.numRanges with
    | zero =>
        rw [Globals.planRanges, hranges, hcount]
        rfl
    | succ last =>
        have hbefore := hfirst.stepCount last hcount.symm
        have hafter := hagain.stepCount last (by rw [hranges, hcount])
        rw [hfirst.lo, hfirst.hi last (by omega), plannedEnd_plannedEnd,
          ← hbefore] at hafter
        rw [← Int32.toInt_inj]
        exact mul_right_cancel₀ (by decide) hafter
  rw [hplan] at hfrequencies hstepCount ⊢
  dsimp only at hfrequencies hstepCount
  rw [hfrequencies, hstepCount]

theorem RangesSound.plans (hsound : globals.RangesSound) :
    globals.Plans globals.planRanges := by
  have hplanned := hsound.plannedFirst
  refine ⟨planRanges_numRanges _, fun k _ => hplanned.lo k, ?_,
    hsound.planRanges_planRanges, ?_⟩
  · intro k hk
    rw [hplanned.hi k hk]
    exact isLeast_plannedEnd
      (UInt16.lt_iff_toNat_lt.mp (hsound.plannable k hk).lt)
  · intro last hlast
    rw [planRanges_numRanges] at hlast
    rw [hplanned.stepCount last hlast, hplanned.lo,
      hplanned.hi last (by omega)]

end Sound

/-! ## One call -/

section Call

variable {globals : Globals F}

theorem RangesSound.checkArguments (hsound : globals.RangesSound)
    (ops : SweepOps F) (args : HackrfSweepArgs) :
    (globals.checkArguments ops args).2.RangesSound := by
  rcases globals.checkArguments_cases ops args with
    ⟨error, -, hcheck⟩ | ⟨range, fftSize, window, -, hrange, hcheck⟩
  · rw [hcheck]
    exact hsound
  · obtain ⟨-, -, hroom, -⟩ := checkRange_ok hrange
    rw [hcheck]
    exact (hsound.appendRange hroom range).congr rfl rfl

theorem mem_frequencyWrites_lt {ops : SweepOps F} {args : HackrfSweepArgs}
    {i : ℕ} (hi : i ∈ globals.frequencyWrites ops args) :
    i < 2 * maxSweepRanges := by
  unfold frequencyWrites at hi
  cases hcheck : globals.checkRange args with
  | error error => simp [hcheck] at hi
  | ok next =>
      obtain ⟨range, -, hroom, rfl⟩ := checkRange_ok hcheck
      rw [hcheck] at hi
      rcases List.mem_append.mp hi with hstored | hplanned
      · simp only [List.mem_cons, List.not_mem_nil, or_false] at hstored
        unfold maxSweepRanges at *
        omega
      · split at hplanned
        · simp at hplanned
        · obtain ⟨k, hk, rfl⟩ := List.mem_map.mp hplanned
          have hcount : k < globals.numRanges + 1 := List.mem_range.mp hk
          unfold maxSweepRanges at *
          omega

theorem RangesSound.plansRanges (hsound : globals.RangesSound)
    (ops : SweepOps F) : globals.PlansRanges ops := by
  refine ⟨hsound.count, fun k hk => (hsound.plannable k hk).lt, ?_, ?_⟩
  · exact fun args i hi => mem_frequencyWrites_lt hi
  · exact fun args fftSize _ => (hsound.checkArguments ops args).plans

theorem RangesSound.hackrfSweep (hsound : globals.RangesSound)
    (ops : SweepOps F) (args : HackrfSweepArgs) (outs : SweepOutcomes)
    (lib : Library) :
    (globals.hackrfSweep ops args outs lib).globals.RangesSound := by
  have hchecked := hsound.checkArguments ops args
  rcases globals.hackrfSweep_globals ops args outs lib with
    ⟨error, -, hsweep⟩ | ⟨-, rx, fd, -, hsweep⟩
  · rw [hsweep]
    exact hchecked
  · rw [hsweep]
    exact hchecked.planRanges.congr rfl rfl

theorem foldl_planRange_frequencies_of_not_mem {indices : List ℕ} {i : ℕ}
    (hi : i ∉ indices.map (2 * · + 1)) :
    (indices.foldl planRange globals).frequencies i =
      globals.frequencies i := by
  induction indices generalizing globals with
  | nil => rfl
  | cons k rest ih =>
      rw [List.map_cons, List.mem_cons, not_or] at hi
      rw [List.foldl_cons, ih hi.2, planRange_frequencies_of_ne hi.1]

/-- A call changes no other elements of `frequencies` than it writes. -/
theorem hackrfSweep_frequencies_of_not_mem {ops : SweepOps F}
    {args : HackrfSweepArgs} {i : ℕ}
    (hi : i ∉ globals.frequencyWrites ops args) (outs : SweepOutcomes)
    (lib : Library) :
    (globals.hackrfSweep ops args outs lib).globals.frequencies i =
      globals.frequencies i := by
  unfold frequencyWrites at hi
  cases hcheck : globals.checkRange args with
  | error error =>
      have hchecked : globals.checkArguments ops args =
          (.error error, globals) := by
        rw [Globals.checkArguments, hcheck]
      rw [hackrfSweep_of_error (congrArg Prod.fst hchecked), hchecked]
  | ok next =>
      have hchecked : globals.checkArguments ops args =
          next.checkOptions ops args := by
        rw [Globals.checkArguments, hcheck]
      obtain ⟨range, -, -, rfl⟩ := checkRange_ok hcheck
      obtain ⟨fftSize, window, hoptions⟩ :=
        (globals.appendRange range.lo range.hi).checkOptions_frame ops args
          (Nat.succ_ne_zero _)
      rw [hcheck] at hi
      dsimp only at hi
      rw [List.mem_append, not_or, List.mem_cons, List.mem_singleton,
        not_or] at hi
      obtain ⟨⟨hlo, hhi⟩, hplan⟩ := hi
      have happended : (globals.appendRange range.lo range.hi).frequencies i =
          globals.frequencies i := by
        unfold Globals.appendRange
        dsimp only
        rw [Function.update_of_ne hhi, Function.update_of_ne hlo]
      rcases globals.hackrfSweep_globals ops args outs lib with
        ⟨error, -, hsweep⟩ | ⟨⟨accepted, haccepted⟩, rx, fd, -, hsweep⟩
      · rw [hsweep, hchecked, hoptions]
        exact happended
      · rw [hchecked] at haccepted
        rw [haccepted] at hplan
        rw [hsweep, prepared, hchecked, hoptions]
        exact (foldl_planRange_frequencies_of_not_mem hplan).trans happended

end Call

end Globals

/-! ## Runs -/

namespace Service

variable {ops : SweepOps F} {service : Service F}

theorem step_rangesSound (hsound : service.globals.RangesSound)
    (request : Request) : (service.step ops request).globals.RangesSound := by
  cases request with
  | signal => exact hsound.congr rfl rfl
  | «open» serialNumber outs =>
      obtain ⟨device, hopen⟩ := service.open_globals ops serialNumber outs
      rw [hopen]
      exact hsound.congr rfl rfl
  | sweep args outs => exact hsound.hackrfSweep ops args outs service.library

theorem run_rangesSound (hsound : service.globals.RangesSound)
    (requests : List Request) :
    (service.run ops requests).globals.RangesSound := by
  induction requests generalizing service with
  | nil => exact hsound
  | cons request rest ih => exact ih (step_rangesSound hsound request)

/-- From a state without ranges on, whatever the calls are, the ranges stay in
order and within bounds, and are planned right. -/
theorem run_plansRanges (hnone : service.globals.numRanges = 0)
    (requests : List Request) :
    (service.run ops requests).globals.PlansRanges ops := by
  have hsound : service.globals.RangesSound := by
    refine ⟨?_, ?_⟩
    · rw [hnone]
      exact Nat.zero_le _
    · intro k hk
      omega
  exact (run_rangesSound hsound requests).plansRanges ops

theorem run_plansRanges_twice :
    ((Service.initial ()).run (.forgetful .wrapping)
      [.open false openFirst, .sweep sweepArgs endsAtOnce,
        .sweep sweepArgs endsAtOnce]).globals.PlansRanges
          (.forgetful .wrapping) :=
  run_plansRanges rfl _

end Service

end HackRF.Sweep
