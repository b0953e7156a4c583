import HackRF.InitSweep
import HackRF.SweepHistory

/-!
# The length of a capture

`hackrf_sweep` checks the number of samples and passes its double, in 32 bits,
to `hackrf_init_sweep`, which checks the number of bytes.  A double that wraps
is a multiple of the block size again, and passes.
-/

namespace HackRF.Sweep

open ByteMemory

variable {F : Type*}

/-- The arguments of a call of `hackrf_init_sweep`. -/
def DeviceCall.initSweepArgs : DeviceCall → Option InitSweepArgs
  | .initSweep frequencyList numRanges numBytes stepWidth offset style =>
      some {
        frequencyList := fun i => frequencyList.getD i 0
        numRanges := Int32.ofNat numRanges
        numBytes := numBytes
        stepWidth := stepWidth
        offset := offset
        style := style.code }
  | _ => none

def Event.initSweepArgs : Event → Option InitSweepArgs
  | .call _ _ function _ => function.initSweepArgs
  | _ => none

theorem readsInitSweep_initSweepArgs :
    ReadsInitSweep Event.initSweepArgs := by
  intro event call hcall
  unfold Event.initSweepArgs at hcall
  split at hcall
  next function _ =>
    cases function with
    | initSweep => trivial
    | _ => cases hcall
  next => cases hcall

namespace InitSweepArgs

variable {args : InitSweepArgs} {usb : Usb}

def Rejected (usb : Usb) (args : InitSweepArgs) : Prop :=
  ∀ stack s,
    ((hackrfInitSweep usb stack args s).1 = .usbApiVersion ∨
      (hackrfInitSweep usb stack args s).1 = .invalidParam) ∧
      (hackrfInitSweep usb stack args s).2.sent = s.sent

/-- The device receives the number of bytes which the samples take. -/
def Delivers (usb : Usb) (numSamples : UInt32) (args : InitSweepArgs) : Prop :=
  ∀ stack s, ∃ transfer,
    (hackrfInitSweep usb stack args s).2.sent = s.sent ++ [transfer] ∧
      transfer.value + 65536 * transfer.index = 2 * numSamples.toNat

theorem not_rejected (haccepted : args.Accepted usb) : ¬ args.Rejected usb := by
  intro hrejected
  have hsent := (hrejected (fun _ => 0) ⟨0, []⟩).2
  rw [haccepted.hackrfInitSweep_eq, sendRequest_sent] at hsent
  simp at hsent

theorem delivers_iff (haccepted : args.Accepted usb) (numSamples : UInt32) :
    args.Delivers usb numSamples ↔
      args.numBytes.toNat = 2 * numSamples.toNat := by
  constructor
  · intro hdelivers
    obtain ⟨transfer, hsent, hlength⟩ := hdelivers (fun _ => 0) ⟨0, []⟩
    rw [haccepted.hackrfInitSweep_eq, sendRequest_sent,
      List.append_cancel_left_eq, List.singleton_inj] at hsent
    rwa [← hsent, request_numBytes] at hlength
  · intro hdouble stack s
    refine ⟨args.request stack, ?_, ?_⟩
    · rw [haccepted.hackrfInitSweep_eq, sendRequest_sent]
    · rw [request_numBytes, hdouble]

end InitSweepArgs

namespace Globals

variable {globals : Globals F} {args : HackrfSweepArgs} {outs : SweepOutcomes}
  {ops : SweepOps F} {lib : Library}

/-- What `hackrf_sweep` passes to `hackrf_init_sweep`. -/
def initSweepArgs (globals : Globals F) : InitSweepArgs where
  frequencyList := fun i =>
    ((List.range (2 * globals.numRanges)).map globals.frequencies).getD i 0
  numRanges := Int32.ofNat globals.numRanges
  numBytes := globals.numSamples * 2
  stepWidth := UInt32.ofNat (tuneStep * freqOneMhz)
  offset := UInt32.ofNat offset
  style := SweepStyle.interleaved.code

theorem initSweepArgs_setUp_iff {call : InitSweepArgs} :
    (∃ event ∈ (globals.setUp args outs).2, event.initSweepArgs = some call) ↔
      outs.Starts ∧ call = globals.initSweepArgs := by
  rw [reading_setUp_iff readsInitSweep_initSweepArgs]
  have hcall : (Globals.call globals globals.initSweepCall
      outs.initSweep).initSweepArgs = some globals.initSweepArgs := rfl
  rw [hcall, Option.some.injEq, eq_comm]

/-- A call of `hackrf_sweep` calls `hackrf_init_sweep` in its set-up only. -/
theorem initSweepArgs_hackrfSweep_iff {fftSize : FftSize}
    (hchecked : (globals.checkArguments ops args).1 = .ok fftSize)
    {call : InitSweepArgs} :
    (∃ event ∈ (globals.hackrfSweep ops args outs lib).events,
        event.initSweepArgs = some call) ↔
      outs.Starts ∧ call = (globals.prepared ops args).initSweepArgs := by
  have hprepared : (∃ event ∈ ((globals.prepared ops args).setUp args outs).2,
      event.initSweepArgs = some call) ↔
        outs.Starts ∧ call = (globals.prepared ops args).initSweepArgs :=
    initSweepArgs_setUp_iff
  rw [← hprepared]
  cases hsetUp : ((globals.prepared ops args).setUp args outs).1 with
  | false => rw [hackrfSweep_of_failure hchecked hsetUp]
  | true =>
      obtain ⟨rest, hstream, hfollows⟩ := stream_follows ops.toFloatOps
        ((globals.prepared ops args).settings fftSize) outs lib
        (globals.prepared ops args)
      rw [hackrfSweep_of_success hchecked hsetUp]
      dsimp only
      rw [hstream]
      constructor
      · rintro ⟨event, hevent, hcall⟩
        rcases List.mem_append.mp hevent with hevent | hevent
        · exact ⟨event, hevent, hcall⟩
        · rcases List.mem_cons.mp hevent with rfl | hevent
          · cases hcall
          · rw [reading_of_follows readsInitSweep_initSweepArgs
              (hfollows event hevent)] at hcall
            cases hcall
      · rintro ⟨event, hevent, hcall⟩
        exact ⟨event, List.mem_append_left _ hevent, hcall⟩

theorem initSweep_calls_iff {fftSize : FftSize}
    (hchecked : (globals.checkArguments ops args).1 = .ok fftSize)
    {Sound : InitSweepArgs → Prop} :
    (∀ event ∈ (globals.hackrfSweep ops args outs lib).events,
      ∀ call, event.initSweepArgs = some call → Sound call) ↔
      (outs.Starts → Sound (globals.prepared ops args).initSweepArgs) := by
  constructor
  · intro hall hstarts
    have hcalled : ∃ event ∈ (globals.hackrfSweep ops args outs lib).events,
        event.initSweepArgs =
          some (globals.prepared ops args).initSweepArgs :=
      (initSweepArgs_hackrfSweep_iff hchecked).mpr ⟨hstarts, rfl⟩
    obtain ⟨event, hevent, hcall⟩ := hcalled
    exact hall event hevent _ hcall
  · intro hprepared event hevent call hcall
    obtain ⟨hstarts, rfl⟩ :=
      (initSweepArgs_hackrfSweep_iff hchecked).mp ⟨event, hevent, hcall⟩
    exact hprepared hstarts

/-! ## The doubled number of samples -/

theorem samples_of_checked {fftSize : FftSize}
    (hchecked : (globals.checkArguments ops args).1 = .ok fftSize) :
    globals.numSamples.toNat % samplesPerBlock = 0 ∧
      samplesPerBlock ≤ globals.numSamples.toNat := by
  have hoptions : ∀ {next : Globals F},
      (next.checkOptions ops args).1 = .ok fftSize →
        next.numSamples.toNat % samplesPerBlock = 0 ∧
          samplesPerBlock ≤ next.numSamples.toNat := by
    intro next hok
    unfold checkOptions at hok
    split_ifs at hok with hmultiple hfew
    all_goals first
      | cases hok
      | exact ⟨not_not.mp hmultiple, not_lt.mp hfew⟩
  unfold checkArguments at hchecked
  cases hcheck : globals.checkRange args with
  | error error => simp [hcheck] at hchecked
  | ok next =>
      obtain ⟨range, -, -, rfl⟩ := checkRange_ok hcheck
      rw [hcheck] at hchecked
      exact @hoptions (globals.appendRange range.lo range.hi) hchecked

@[simp] theorem prepared_numSamples :
    (globals.prepared ops args).numSamples = globals.numSamples := by
  obtain ⟨_, _, _, _, _, hprepared⟩ := globals.prepared_frame ops args
  rw [hprepared]

theorem numBytes_toNat (globals : Globals F) :
    globals.initSweepArgs.numBytes.toNat =
      globals.numSamples.toNat * 2 % 2 ^ 32 :=
  UInt32.toNat_mul _ _

/-- Only a double of zero is not accepted. -/
theorem prepared_accepted_iff {fftSize : FftSize}
    (hchecked : (globals.checkArguments ops args).1 = .ok fftSize)
    (usb : Usb) :
    (globals.prepared ops args).initSweepArgs.Accepted usb ↔
      HasInitSweep usb ∧ globals.numSamples.toNat ≠ 2 ^ 31 := by
  obtain ⟨hmultiple, hfew⟩ := samples_of_checked hchecked
  have hlt := globals.numSamples.toNat_lt
  have hbytes := (globals.prepared ops args).numBytes_toNat
  rw [prepared_numSamples] at hbytes
  have hranges : ∃ n, (globals.prepared ops args).numRanges = n + 1 ∧
      n + 1 ≤ maxSweepRanges := by
    cases hcheck : globals.checkRange args with
    | error error => simp [checkArguments, hcheck] at hchecked
    | ok next =>
        obtain ⟨-, -, hroom, -⟩ := checkRange_ok hcheck
        exact ⟨_, prepared_numRanges hcheck ops, hroom⟩
  obtain ⟨n, hnumRanges, hroom⟩ := hranges
  have hcount : (globals.prepared ops args).initSweepArgs.numRanges.toInt =
      n + 1 := by
    rw [initSweepArgs, hnumRanges]
    exact Int32.toInt_ofNat_of_lt (by unfold maxSweepRanges at hroom; omega)
  constructor
  · intro haccepted
    refine ⟨haccepted.usbVersion, fun hhalf => ?_⟩
    have hblock := haccepted.block_le
    rw [hbytes, hhalf] at hblock
    exact absurd hblock (by decide)
  · rintro ⟨hversion, hhalf⟩
    have hwidth : (globals.prepared ops args).initSweepArgs.stepWidth.toNat =
        20000000 := rfl
    have hstyle : (globals.prepared ops args).initSweepArgs.style.toNat = 1 :=
      rfl
    unfold samplesPerBlock at hmultiple hfew
    exact {
      usbVersion := hversion
      one_le := by omega
      le_max := by omega
      blocks := by unfold bytesPerBlock; omega
      block_le := by unfold bytesPerBlock; omega
      stepWidth := by omega
      style := by omega }

end Globals

/-- The device is told to capture what `hackrf_sweep` asks for, unless the
double of the number of samples wraps to a number that is accepted. -/
theorem hackrfSweep_delivers_iff (ops : SweepOps F) (args : HackrfSweepArgs)
    (outs : SweepOutcomes) (globals : Globals F) (lib : Library)
    {fftSize : FftSize}
    (hchecked : (globals.checkArguments ops args).1 = .ok fftSize)
    (usb : Usb) :
    (∀ event ∈ (globals.hackrfSweep ops args outs lib).events,
      ∀ call, event.initSweepArgs = some call →
        call.Rejected usb ∨ call.Delivers usb globals.numSamples) ↔
      (outs.Starts →
        ¬ HasInitSweep usb ∨ globals.numSamples.toNat ≤ 2 ^ 31) := by
  rw [Globals.initSweep_calls_iff hchecked]
  apply imp_congr_right
  intro _
  have haccepted := Globals.prepared_accepted_iff hchecked usb
  have hbytes := (globals.prepared ops args).numBytes_toNat
  rw [Globals.prepared_numSamples] at hbytes
  have hlt := globals.numSamples.toNat_lt
  by_cases hcall : (globals.prepared ops args).initSweepArgs.Accepted usb
  · obtain ⟨hversion, hhalf⟩ := haccepted.mp hcall
    have hnot := InitSweepArgs.not_rejected hcall
    rw [InitSweepArgs.delivers_iff hcall, hbytes]
    simp only [hnot, hversion, not_true, false_or]
    omega
  · have hrejected : (globals.prepared ops args).initSweepArgs.Rejected usb :=
      InitSweepArgs.hackrfInitSweep_of_not_accepted hcall
    apply iff_of_true (.inl hrejected)
    rw [haccepted, not_and_or, not_not] at hcall
    exact hcall.imp_right fun hhalf => hhalf.le

/-- The globals before any sweep, with `-n` given as `numSamples`. -/
def capturing (numSamples : UInt32) : Globals Unit :=
  { Globals.initial () with numSamples := numSamples }

theorem capturing_checked {numSamples : UInt32}
    (hmultiple : numSamples.toNat % samplesPerBlock = 0)
    (hfew : samplesPerBlock ≤ numSamples.toNat) :
    ∃ fftSize, ((capturing numSamples).checkArguments (.forgetful .wrapping)
      sweepArgs).1 = .ok fftSize := by
  obtain ⟨fftSize, haccept, -⟩ :=
    acceptFftSize_eq (show 4 ≤ 20 by decide) (by decide)
  have hroom : (capturing numSamples).numRanges < maxSweepRanges :=
    show 0 < 10 by decide
  refine ⟨fftSize, ?_⟩
  rw [Globals.checkArguments,
    Globals.checkRange_eq_ok sweepArgs hroom (by decide) (by decide)]
  simp [Globals.checkOptions, Globals.appendRange, capturing, Globals.initial,
    hmultiple, Nat.not_lt.mpr hfew, haccept, -Nat.not_lt, -not_lt]

theorem hackrfSweep_delivers_default :
    (∀ event ∈ ((capturing 8192).hackrfSweep (.forgetful .wrapping) sweepArgs
        endsAtOnce .initial).events,
      ∀ call, event.initSweepArgs = some call →
        call.Rejected obligingUsb ∨ call.Delivers obligingUsb 8192) ↔
      (endsAtOnce.Starts →
        ¬ HasInitSweep obligingUsb ∨ (8192 : UInt32).toNat ≤ 2 ^ 31) := by
  obtain ⟨fftSize, hchecked⟩ := @capturing_checked 8192 (by decide) (by decide)
  exact hackrfSweep_delivers_iff (.forgetful .wrapping) sweepArgs endsAtOnce
    (capturing 8192) .initial hchecked obligingUsb

/-- The device is told to capture 8192 samples, 2 ^ 31 too few. -/
theorem hackrfSweep_delivers_fails :
    ¬ ∀ event ∈ ((capturing 2147491840).hackrfSweep (.forgetful .wrapping)
        sweepArgs endsAtOnce .initial).events,
      ∀ call, event.initSweepArgs = some call →
        call.Rejected obligingUsb ∨ call.Delivers obligingUsb 2147491840 := by
  obtain ⟨fftSize, hchecked⟩ :=
    @capturing_checked 2147491840 (by decide) (by decide)
  have haccepted := (Globals.prepared_accepted_iff hchecked obligingUsb).mpr
    ⟨⟨0x0104, rfl, by decide⟩, by decide⟩
  rw [Globals.initSweep_calls_iff hchecked]
  intro hsound
  rcases hsound ⟨rfl, rfl, rfl⟩ with hrejected | hdelivers
  · exact InitSweepArgs.not_rejected haccepted hrejected
  · rw [InitSweepArgs.delivers_iff haccepted, Globals.numBytes_toNat,
      Globals.prepared_numSamples] at hdelivers
    exact absurd hdelivers (by decide)

end HackRF.Sweep
