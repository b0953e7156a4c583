import HackRF.SweepService

/-!
# What a call of `hackrf_sweep` does

A call is rejected before or after its range is stored, or it fails in the
set-up, or it streams and shuts the device down.  For each of these: what
becomes of the globals, and which calls of libhackrf are made.
-/

namespace HackRF.Sweep

variable {F : Type*}

/-- The calls of `hackrf_sweep` which do not close the device. -/
def DeviceCall.Sweeps : DeviceCall → Prop
  | .setSampleRateManual _ _ => False
  | .setBasebandFilterBandwidth _ => False
  | .close => False
  | _ => True

/-- The calls made by `setUp` after the sweep is set up. -/
def DeviceCall.Enables : DeviceCall → Prop
  | .setAmpEnable _ => True
  | .setAntennaEnable _ => True
  | _ => False

/-- A call of `hackrf_sweep` on `device` which does not close it. -/
def Event.Uses (device : Option DeviceHandle) (fd : Bool) : Event → Prop
  | .call device' fd' function _ =>
      device' = device ∧ fd' = fd ∧ function.Sweeps
  | _ => False

theorem DeviceCall.Enables.sweeps {function : DeviceCall}
    (henables : function.Enables) : function.Sweeps := by
  cases function <;> trivial

namespace SweepOutcomes

def Starts (outs : SweepOutcomes) : Prop :=
  outs.vgaGain = .success ∧ outs.lnaGain = .success ∧ outs.startRx = .success

def Configures (outs : SweepOutcomes) (globals : Globals F) : Prop :=
  outs.initSweep = .success ∧
    (globals.amp = true → outs.ampEnable = .success) ∧
      (globals.antenna = true → outs.antennaEnable = .success)

end SweepOutcomes

theorem toInt32_eq_zero_iff {result : HackrfError} :
    toInt32 result = 0 ↔ result = .success := by
  cases result <;> decide

theorem SweepOutcomes.starts_iff (outs : SweepOutcomes) :
    toInt32 outs.vgaGain ||| toInt32 outs.lnaGain ||| toInt32 outs.startRx =
      0 ↔ outs.Starts := by
  have hor : ∀ x y : Int32, x ||| y = 0 ↔ x = 0 ∧ y = 0 := by
    intro x y
    simp only [← Int32.toBitVec_inj, Int32.toBitVec_or]
    exact BitVec.or_eq_zero_iff
  rw [hor, hor, toInt32_eq_zero_iff, toInt32_eq_zero_iff, toInt32_eq_zero_iff,
    and_assoc, Starts]

/-- The number of steps which the planning loop computes for a range. -/
theorem plannedSteps_toNat {lo hi : UInt16} (hlt : lo < hi) :
    (1 + (hi.toUInt64 - lo.toUInt64 - 1) / UInt64.ofNat tuneStep).toNat =
      1 + (hi.toNat - lo.toNat - 1) / tuneStep := by
  have hless := UInt16.lt_iff_toNat_lt.mp hlt
  have hsize := hi.toNat_lt
  have htune : (UInt64.ofNat tuneStep).toNat = tuneStep := rfl
  have hle : lo.toUInt64 ≤ hi.toUInt64 := by
    simp only [UInt64.le_iff_toNat_le, UInt16.toNat_toUInt64]
    omega
  have hwidth : (hi.toUInt64 - lo.toUInt64).toNat = hi.toNat - lo.toNat := by
    rw [UInt64.toNat_sub_of_le _ _ hle, UInt16.toNat_toUInt64,
      UInt16.toNat_toUInt64]
  have hdiff : (hi.toUInt64 - lo.toUInt64 - 1).toNat =
      hi.toNat - lo.toNat - 1 := by
    rw [UInt64.toNat_sub_of_le, hwidth, UInt64.toNat_one]
    rw [UInt64.le_iff_toNat_le, hwidth, UInt64.toNat_one]
    omega
  rw [UInt64.toNat_add, UInt64.toNat_div, hdiff, htune, UInt64.toNat_one]
  unfold tuneStep defaultSampleRateHz freqOneMhz
  omega

/-- The upper end which the planning loop stores, if it fits. -/
theorem plannedEnd_toNat {lo hi : UInt16} (hlt : lo < hi)
    (hfits : lo.toNat + (1 + (hi.toNat - lo.toNat - 1) / tuneStep) * tuneStep <
      2 ^ 16) :
    (lo + (1 + (hi.toUInt64 - lo.toUInt64 - 1) /
        UInt64.ofNat tuneStep).toUInt16 * UInt16.ofNat tuneStep).toNat =
      lo.toNat + (1 + (hi.toNat - lo.toNat - 1) / tuneStep) * tuneStep := by
  have htune : (UInt16.ofNat tuneStep).toNat = tuneStep := rfl
  rw [UInt16.toNat_add, UInt16.toNat_mul, UInt64.toNat_toUInt16,
    plannedSteps_toNat hlt, htune]
  unfold tuneStep defaultSampleRateHz freqOneMhz at *
  omega

theorem SweepRange.planned (range : SweepRange) :
    range.lo + (1 + (range.hi.toUInt64 - range.lo.toUInt64 - 1) /
        UInt64.ofNat tuneStep).toUInt16 * UInt16.ofNat tuneStep =
      range.plannedHi := by
  have hplanned := range.plannedHi_toNat
  have hfits := range.plannedHi.toNat_lt
  rw [hplanned] at hfits
  rw [← UInt16.toNat_inj, hplanned]
  exact plannedEnd_toNat range.lo_lt_hi hfits

namespace Globals

variable {globals : Globals F} {args : HackrfSweepArgs} {outs : SweepOutcomes}
  {lib : Library}

theorem checkRange_ok {next : Globals F}
    (hcheck : globals.checkRange args = .ok next) :
    ∃ range, acceptRange args.freqMin args.freqMax = some range ∧
      globals.numRanges < maxSweepRanges ∧
        next = globals.appendRange range.lo range.hi := by
  unfold checkRange at hcheck
  split_ifs at hcheck with hfull hempty habove
  simp only [Except.ok.injEq] at hcheck
  rw [not_le] at hfull
  have haccept := acceptRange.eq_1 args.freqMin args.freqMax
  rw [dif_neg hempty, dif_neg habove] at haccept
  exact ⟨_, haccept, hfull, hcheck.symm⟩

theorem checkRange_eq_ok (args : HackrfSweepArgs)
    (hroom : globals.numRanges < maxSweepRanges)
    (hlt : args.freqMin < args.freqMax)
    (hmax : args.freqMax.toNat ≤ freqMaxMhz) :
    globals.checkRange args = .ok (globals.appendRange args.freqMin.toUInt16
      args.freqMax.toUInt16) := by
  rw [checkRange, if_neg (Nat.not_le.mpr hroom),
    if_neg (UInt32.not_le.mpr hlt), if_neg (Nat.not_lt.mpr hmax)]

theorem checkOptions_frame (ops : SweepOps F) (args : HackrfSweepArgs)
    (hranges : globals.numRanges ≠ 0) :
    ∃ fftSize window, (globals.checkOptions ops args).2 =
      { globals with fftSize := fftSize, window := window } := by
  unfold checkOptions
  rw [if_neg hranges]
  dsimp only
  repeat' split
  all_goals exact ⟨_, _, rfl⟩

/-- A request is rejected with nothing stored, or its range is stored whether
or not the other checks fail. -/
theorem checkArguments_cases (ops : SweepOps F) (args : HackrfSweepArgs)
    (globals : Globals F) :
    (∃ error, globals.checkRange args = .error error ∧
        globals.checkArguments ops args = (.error error, globals)) ∨
      ∃ range fftSize window,
        acceptRange args.freqMin args.freqMax = some range ∧
        globals.checkRange args = .ok (globals.appendRange range.lo range.hi) ∧
        (globals.checkArguments ops args).2 =
          { globals.appendRange range.lo range.hi with
            fftSize := fftSize, window := window } := by
  cases hcheck : globals.checkRange args with
  | error error => exact .inl ⟨error, rfl, by rw [checkArguments, hcheck]⟩
  | ok next =>
      obtain ⟨range, haccept, -, rfl⟩ := checkRange_ok hcheck
      obtain ⟨fftSize, window, hoptions⟩ :=
        (globals.appendRange range.lo range.hi).checkOptions_frame ops args
          (Nat.succ_ne_zero _)
      refine .inr ⟨range, fftSize, window, haccept, rfl, ?_⟩
      rw [checkArguments, hcheck, hoptions]

theorem planRanges_frame (globals : Globals F) :
    ∃ stepCount frequencies, globals.planRanges =
      { globals with stepCount := stepCount, frequencies := frequencies } := by
  unfold planRanges
  generalize List.range globals.numRanges = indices
  induction indices generalizing globals with
  | nil => exact ⟨_, _, rfl⟩
  | cons i rest ih =>
      obtain ⟨stepCount, frequencies, hrest⟩ := ih (globals.planRange i)
      exact ⟨stepCount, frequencies, hrest⟩

theorem planRange_frequencies_of_ne {i k : ℕ} (hk : k ≠ 2 * i + 1) :
    (globals.planRange i).frequencies k = globals.frequencies k :=
  Function.update_of_ne hk _ _

theorem planRange_frequencies_hi {i : ℕ} (range : SweepRange)
    (hlo : globals.frequencies (2 * i) = range.lo)
    (hhi : globals.frequencies (2 * i + 1) = range.hi) :
    (globals.planRange i).frequencies (2 * i + 1) = range.plannedHi := by
  apply (Function.update_self _ _ _).trans
  rw [hlo, hhi]
  exact range.planned

theorem planRanges_one (hranges : globals.numRanges = 1) :
    globals.planRanges = globals.planRange 0 := by
  rw [planRanges, hranges]
  rfl

/-! ## The set-up -/

theorem enable_succeeds_iff (globals : Globals F) (flag : Bool)
    (function : DeviceCall) (result : HackrfError) :
    (globals.enable flag function result).1 = true ↔
      (flag = true → result = .success) := by
  unfold enable
  cases flag <;> simp

theorem enable_events {flag : Bool} {function : DeviceCall}
    {result : HackrfError} {event : Event}
    (hevent : event ∈ (globals.enable flag function result).2) :
    event = globals.call function result := by
  unfold enable at hevent
  cases flag with
  | false => simp at hevent
  | true => exact List.mem_singleton.mp hevent

theorem setUp_of_not_starts (hstarts : ¬ outs.Starts) :
    globals.setUp args outs = (false, [
      globals.call (.setVgaGain args.vgaGain) outs.vgaGain,
      globals.call (.setLnaGain args.lnaGain) outs.lnaGain,
      globals.call .startRx outs.startRx]) := by
  unfold setUp
  rw [if_pos (mt outs.starts_iff.mp hstarts)]

theorem setUp_of_starts (globals : Globals F) (args : HackrfSweepArgs)
    (hstarts : outs.Starts) :
    ∃ enables, (globals.setUp args outs).2 = [
        globals.call (.setVgaGain args.vgaGain) outs.vgaGain,
        globals.call (.setLnaGain args.lnaGain) outs.lnaGain,
        globals.call .startRx outs.startRx,
        globals.call globals.initSweepCall outs.initSweep] ++ enables ∧
      (∀ event ∈ enables, ∃ function result,
        event = globals.call function result ∧ function.Enables) ∧
      ((globals.setUp args outs).1 = true ↔ outs.Configures globals) := by
  have hamp := globals.enable_succeeds_iff globals.amp
    (.setAmpEnable globals.ampEnable.toUInt8) outs.ampEnable
  unfold setUp SweepOutcomes.Configures
  rw [if_neg (not_not.mpr (outs.starts_iff.mpr hstarts))]
  dsimp only
  split_ifs with hinit hamped
  · exact ⟨[], rfl, by simp, by simp [hinit]⟩
  · refine ⟨_, List.append_assoc _ _ _, ?_, ?_⟩
    · intro event hevent
      rcases List.mem_append.mp hevent with hevent | hevent
      · exact ⟨_, _, enable_events hevent, trivial⟩
      · exact ⟨_, _, enable_events hevent, trivial⟩
    · rw [enable_succeeds_iff]
      simp only [not_not.mp hinit, true_and]
      exact (and_iff_right (hamp.mp hamped)).symm
  · refine ⟨_, rfl, ?_, ?_⟩
    · intro event hevent
      exact ⟨_, _, enable_events hevent, trivial⟩
    · rw [hamp] at hamped
      simp [hamped]

theorem setUp_succeeds_iff (globals : Globals F) (args : HackrfSweepArgs)
    (outs : SweepOutcomes) :
    (globals.setUp args outs).1 = true ↔
      outs.Starts ∧ outs.Configures globals := by
  by_cases hstarts : outs.Starts
  · obtain ⟨_, -, -, hsucceeds⟩ := globals.setUp_of_starts args hstarts
    simp [hsucceeds, hstarts]
  · simp [setUp_of_not_starts hstarts, hstarts]

theorem call_uses (globals : Globals F) {function : DeviceCall}
    (hsweeps : function.Sweeps) (result : HackrfError) :
    (globals.call function result).Uses globals.device globals.fd :=
  ⟨rfl, rfl, hsweeps⟩

theorem setUp_uses (globals : Globals F) (args : HackrfSweepArgs)
    (outs : SweepOutcomes) :
    ∀ event ∈ (globals.setUp args outs).2,
      event.Uses globals.device globals.fd := by
  have hvga : (DeviceCall.setVgaGain args.vgaGain).Sweeps := trivial
  have hlna : (DeviceCall.setLnaGain args.lnaGain).Sweeps := trivial
  have hstart : DeviceCall.startRx.Sweeps := trivial
  have hinit : globals.initSweepCall.Sweeps := trivial
  by_cases hstarts : outs.Starts
  · obtain ⟨enables, hevents, henables, -⟩ :=
      globals.setUp_of_starts args hstarts
    rw [hevents, List.forall_mem_append]
    refine ⟨?_, ?_⟩
    · simp only [List.forall_mem_cons]
      exact ⟨globals.call_uses hvga _, globals.call_uses hlna _,
        globals.call_uses hstart _, globals.call_uses hinit _,
        List.forall_mem_nil _⟩
    · intro event hevent
      obtain ⟨function, result, rfl, hfunction⟩ := henables event hevent
      exact globals.call_uses hfunction.sweeps result
  · rw [setUp_of_not_starts hstarts]
    simp only [List.forall_mem_cons]
    exact ⟨globals.call_uses hvga _, globals.call_uses hlna _,
      globals.call_uses hstart _, List.forall_mem_nil _⟩

theorem startRx_mem_setUp (globals : Globals F) (args : HackrfSweepArgs)
    (outs : SweepOutcomes) :
    globals.call .startRx outs.startRx ∈ (globals.setUp args outs).2 := by
  by_cases hstarts : outs.Starts
  · obtain ⟨_, hevents, -⟩ := globals.setUp_of_starts args hstarts
    simp [hevents]
  · simp [setUp_of_not_starts hstarts]

/-! ## The loop and the shutdown -/

@[simp] theorem setRx_setRx (globals : Globals F) (first second : State F) :
    (globals.setRx first).setRx second = globals.setRx second := rfl

@[simp] theorem call_setRx (globals : Globals F) (rx : State F) :
    (globals.setRx rx).call = globals.call := rfl

@[simp] theorem shutDown_setRx (globals : Globals F) (rx : State F)
    (outs : SweepOutcomes) (lib : Library) :
    (globals.setRx rx).shutDown outs lib = globals.shutDown outs lib := rfl

theorem shutDown_of_none (hdevice : globals.device = none) :
    globals.shutDown outs lib = ([], lib) := by
  rw [shutDown, hdevice]

theorem shutDown_of_some (outs : SweepOutcomes) (lib : Library)
    {handle : DeviceHandle} (hdevice : globals.device = some handle) :
    ∃ exited next, globals.shutDown outs lib = ([
        globals.call .stopRx outs.stopRx,
        globals.call .close (Streaming.Device.closeResult outs.closeStopRx
          outs.closeStopTx),
        .exit exited], next) ∧
      next.handles = lib.handles.erase handle := by
  have hshutDown := shutDown.eq_1 outs globals lib
  rw [hdevice] at hshutDown
  exact ⟨_, _, hshutDown, lib.hackrfClose_handles handle outs.closeStopRx
    outs.closeStopTx⟩

theorem streamLoop_events (ops : FloatOps F) (settings : Settings F)
    (ended : HackrfError) (ticks : List Tick) (globals : Globals F) :
    ∀ event ∈ (globals.streamLoop ops settings ended ticks).2.1,
      ∃ result, event = globals.call .isStreaming result := by
  induction ticks generalizing globals with
  | nil =>
      intro event hevent
      exact ⟨ended, List.mem_singleton.mp hevent⟩
  | cons tick rest ih =>
      unfold streamLoop
      dsimp only
      split_ifs
      · intro event hevent
        exact ⟨.true, List.mem_singleton.mp hevent⟩
      · intro event hevent
        exact ⟨.true, List.mem_singleton.mp hevent⟩
      · intro event hevent
        rcases List.mem_cons.mp hevent with rfl | hrest
        · exact ⟨.true, rfl⟩
        · obtain ⟨result, hresult⟩ := ih _ event hrest
          exact ⟨result, hresult⟩

theorem streamLoop_frame (ops : FloatOps F) (settings : Settings F)
    (ended : HackrfError) (ticks : List Tick) (globals : Globals F) :
    ∃ rx, (globals.streamLoop ops settings ended ticks).2.2 =
      globals.setRx rx := by
  induction ticks generalizing globals with
  | nil => exact ⟨_, rfl⟩
  | cons tick rest ih =>
      unfold streamLoop
      dsimp only
      split_ifs
      · exact ⟨_, rfl⟩
      · exact ⟨_, rfl⟩
      · obtain ⟨rx, hrest⟩ := ih
          ((globals.receive ops settings tick.asleep).resetByteCount.receive ops
            settings tick.awake)
        refine ⟨rx, hrest.trans ?_⟩
        simp only [receive, resetByteCount, setRx_setRx]

/-! ## `hackrf_sweep` -/

def prepared (ops : SweepOps F) (args : HackrfSweepArgs)
    (globals : Globals F) : Globals F :=
  (globals.checkArguments ops args).2.planRanges

theorem prepared_frame (ops : SweepOps F) (args : HackrfSweepArgs)
    (globals : Globals F) :
    ∃ numRanges stepCount frequencies fftSize window,
      globals.prepared ops args = { globals with
        numRanges := numRanges
        stepCount := stepCount
        frequencies := frequencies
        fftSize := fftSize
        window := window } := by
  obtain ⟨stepCount, frequencies, hplan⟩ :=
    (globals.checkArguments ops args).2.planRanges_frame
  rw [prepared, hplan]
  rcases globals.checkArguments_cases ops args with
    ⟨error, -, hcheck⟩ | ⟨range, fftSize, window, -, -, hcheck⟩
  · rw [hcheck]
    exact ⟨_, _, _, _, _, rfl⟩
  · rw [hcheck]
    exact ⟨_, _, _, _, _, rfl⟩

/-- The globals which the checks and the planning leave alone. -/
structure SameSession (globals next : Globals F) : Prop where
  device : next.device = globals.device
  fd : next.fd = globals.fd
  amp : next.amp = globals.amp
  antenna : next.antenna = globals.antenna
  rx : next.rx = globals.rx

theorem prepared_sameSession (ops : SweepOps F) (args : HackrfSweepArgs)
    (globals : Globals F) :
    globals.SameSession (globals.prepared ops args) := by
  obtain ⟨numRanges, stepCount, frequencies, fftSize, window, hprepared⟩ :=
    globals.prepared_frame ops args
  rw [hprepared]
  exact ⟨rfl, rfl, rfl, rfl, rfl⟩

theorem hackrfSweep_of_error {ops : SweepOps F} {error : ArgumentError}
    (hcheck : (globals.checkArguments ops args).1 = .error error) :
    globals.hackrfSweep ops args outs lib =
      ⟨.failure, [.rejected error.message],
        (globals.checkArguments ops args).2, lib⟩ := by
  unfold hackrfSweep
  rcases hchecked : globals.checkArguments ops args with ⟨result, next⟩
  rw [hchecked] at hcheck
  obtain rfl : result = .error error := hcheck
  rfl

theorem hackrfSweep_of_accepted {ops : SweepOps F} {fftSize : FftSize}
    (hcheck : (globals.checkArguments ops args).1 = .ok fftSize) :
    globals.hackrfSweep ops args outs lib =
      if ((globals.prepared ops args).setUp args outs).1 then
        { (globals.prepared ops args).stream ops.toFloatOps
            ((globals.prepared ops args).settings fftSize) outs lib with
          events := ((globals.prepared ops args).setUp args outs).2 ++
            ((globals.prepared ops args).stream ops.toFloatOps
              ((globals.prepared ops args).settings fftSize) outs
                lib).events }
      else {
        code := .failure
        events := ((globals.prepared ops args).setUp args outs).2
        globals := (globals.prepared ops args).receive ops.toFloatOps
          ((globals.prepared ops args).settings fftSize) outs.late
        library := lib } := by
  unfold prepared hackrfSweep
  rcases hchecked : globals.checkArguments ops args with ⟨result, next⟩
  rw [hchecked] at hcheck
  obtain rfl : result = .ok fftSize := hcheck
  rfl

theorem hackrfSweep_of_failure {ops : SweepOps F} {fftSize : FftSize}
    (hcheck : (globals.checkArguments ops args).1 = .ok fftSize)
    (hsetUp : ((globals.prepared ops args).setUp args outs).1 = false) :
    globals.hackrfSweep ops args outs lib = {
      code := .failure
      events := ((globals.prepared ops args).setUp args outs).2
      globals := (globals.prepared ops args).receive ops.toFloatOps
        ((globals.prepared ops args).settings fftSize) outs.late
      library := lib } := by
  rw [hackrfSweep_of_accepted hcheck, if_neg (by simp [hsetUp])]

theorem hackrfSweep_of_success {ops : SweepOps F} {fftSize : FftSize}
    (hcheck : (globals.checkArguments ops args).1 = .ok fftSize)
    (hsetUp : ((globals.prepared ops args).setUp args outs).1 = true) :
    globals.hackrfSweep ops args outs lib =
      { (globals.prepared ops args).stream ops.toFloatOps
          ((globals.prepared ops args).settings fftSize) outs lib with
        events := ((globals.prepared ops args).setUp args outs).2 ++
          ((globals.prepared ops args).stream ops.toFloatOps
            ((globals.prepared ops args).settings fftSize) outs lib).events } := by
  rw [hackrfSweep_of_accepted hcheck, if_pos hsetUp]

/-- Only what `rx_callback` writes has changed when the device is shut down. -/
theorem stream_eq (ops : FloatOps F) (settings : Settings F)
    (outs : SweepOutcomes) (lib : Library) (globals : Globals F) :
    ∃ rx, globals.stream ops settings outs lib =
      let received := globals.receive ops settings outs.early
      let looped := received.streamLoop ops settings outs.ended outs.ticks
      { code := looped.1
        events := .enterLoop received.rx.doExit received.rx.sweepStarted
            received.rx.sweepCount :: looped.2.1 ++
          globals.call .isStreaming outs.finalStreaming ::
            (globals.shutDown outs lib).1
        globals := { globals.setRx rx with fd := false }
        library := (globals.shutDown outs lib).2 } := by
  obtain ⟨rx, hframe⟩ := streamLoop_frame ops settings outs.ended outs.ticks
    (globals.receive ops settings outs.early)
  unfold stream
  dsimp only
  rw [hframe]
  simp only [receive, shutDown_setRx, call_setRx, setRx_setRx]
  exact ⟨_, rfl⟩

/-- What is streamed comes as calls on the device, and the last ones shut it
down. -/
theorem stream_events (ops : FloatOps F) (settings : Settings F)
    (outs : SweepOutcomes) (lib : Library) (globals : Globals F) :
    ∃ asked, (globals.stream ops settings outs lib).events =
        .enterLoop (globals.receive ops settings outs.early).rx.doExit
          (globals.receive ops settings outs.early).rx.sweepStarted
          (globals.receive ops settings outs.early).rx.sweepCount ::
            asked ++ (globals.shutDown outs lib).1 ∧
      ∀ event ∈ asked, ∃ result,
        event = globals.call .isStreaming result := by
  have hloop := streamLoop_events ops settings outs.ended outs.ticks
    (globals.receive ops settings outs.early)
  obtain ⟨rx, hstream⟩ := stream_eq ops settings outs lib globals
  refine ⟨((globals.receive ops settings outs.early).streamLoop ops settings
    outs.ended outs.ticks).2.1 ++
      [globals.call .isStreaming outs.finalStreaming], ?_, ?_⟩
  · rw [hstream]
    simp only [List.append_assoc, List.cons_append, List.nil_append]
  · intro event hevent
    rcases List.mem_append.mp hevent with hbefore | hlast
    · obtain ⟨result, hresult⟩ := hloop event hbefore
      exact ⟨result, hresult⟩
    · exact ⟨_, List.mem_singleton.mp hlast⟩

theorem stream_library (ops : FloatOps F) (settings : Settings F)
    (outs : SweepOutcomes) (lib : Library) (globals : Globals F) :
    (globals.stream ops settings outs lib).library =
      (globals.shutDown outs lib).2 := by
  obtain ⟨rx, hstream⟩ := stream_eq ops settings outs lib globals
  rw [hstream]

theorem stream_globals (ops : FloatOps F) (settings : Settings F)
    (outs : SweepOutcomes) (lib : Library) (globals : Globals F) :
    ∃ rx, (globals.stream ops settings outs lib).globals =
      { globals.setRx rx with fd := false } := by
  obtain ⟨rx, hstream⟩ := stream_eq ops settings outs lib globals
  exact ⟨rx, by rw [hstream]⟩

/-- Apart from the stream and what `rx_callback` writes, a call leaves the
globals as its checks and its planning made them. -/
theorem hackrfSweep_globals (ops : SweepOps F) (args : HackrfSweepArgs)
    (outs : SweepOutcomes) (globals : Globals F) (lib : Library) :
    (∃ error, (globals.checkArguments ops args).1 = .error error ∧
        (globals.hackrfSweep ops args outs lib).globals =
          (globals.checkArguments ops args).2) ∨
      (∃ fftSize, (globals.checkArguments ops args).1 = .ok fftSize) ∧
        ∃ rx fd, (fd = true → globals.fd = true) ∧
          (globals.hackrfSweep ops args outs lib).globals =
            { (globals.prepared ops args).setRx rx with fd := fd } := by
  cases hcheck : (globals.checkArguments ops args).1 with
  | error error =>
      exact .inl ⟨error, rfl, by rw [hackrfSweep_of_error hcheck]⟩
  | ok fftSize =>
      refine .inr ⟨⟨fftSize, rfl⟩, ?_⟩
      obtain ⟨numRanges, stepCount, frequencies, fftSize', window, hprepared⟩ :=
        globals.prepared_frame ops args
      cases hsetUp : ((globals.prepared ops args).setUp args outs).1 with
      | false =>
          rw [hackrfSweep_of_failure hcheck hsetUp]
          refine ⟨((globals.prepared ops args).receive ops.toFloatOps
            ((globals.prepared ops args).settings fftSize) outs.late).rx,
            (globals.prepared ops args).fd, ?_, rfl⟩
          rw [hprepared]
          exact id
      | true =>
          rw [hackrfSweep_of_success hcheck hsetUp]
          obtain ⟨rx, hstream⟩ := stream_globals ops.toFloatOps
            ((globals.prepared ops args).settings fftSize) outs lib
            (globals.prepared ops args)
          exact ⟨rx, false, by simp, hstream⟩

/-! ## `hackRFSweepThread` -/

theorem hackRFSweepThread_globals (serialNumber : Bool)
    (outs : OpenThreadOutcomes) (globals : Globals F) (lib : Library) :
    ∃ device, (globals.hackRFSweepThread serialNumber outs lib).2.1 =
      { globals with device := device } := by
  unfold hackRFSweepThread
  dsimp only
  split_ifs
  · exact ⟨globals.device, rfl⟩
  · exact ⟨_, rfl⟩
  · exact ⟨_, rfl⟩
  · exact ⟨_, rfl⟩

end Globals

theorem Service.open_globals (ops : SweepOps F) (service : Service F)
    (serialNumber : Bool) (outs : OpenThreadOutcomes) :
    ∃ device, (service.step ops (.open serialNumber outs)).globals =
      { service.globals with device := device } :=
  service.globals.hackRFSweepThread_globals serialNumber outs service.library

end HackRF.Sweep
