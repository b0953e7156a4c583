import HackRF.LibraryCalls
import HackRF.PluginMessages
import HackRF.RxStream

/-!
# The sweep service

`hackrf_sweep`, and `hackRFSweepThread` which opens the device for it.  Both
work on file-level globals that keep what a call leaves in them until the next
one.  A run is a sequence of their calls, in any order.  What libhackrf
answers, the transfers it delivers and the signals that arrive are inputs.

Every call reports what it does with the library, in order.
-/

namespace HackRF.Sweep

abbrev maxSweepRanges : ℕ := 10

abbrev defaultBasebandFilterBandwidth : ℕ := 15000000

abbrev offset : ℕ := 7500000

/-! ## Globals -/

/-- The arithmetic of the sweeper: `hann n i` is the value which `hackrf_sweep`
stores in `window[i]` for an FFT of size `n`,
`(float) (0.5f * (1.0f - cos(2 * M_PI * i / (n - 1))))` with the C library's
`cos`. -/
structure SweepOps (F : Type*) extends FloatOps F where
  hann : ℕ → ℕ → F

/-- The globals of `hackrf_sweep.c`; `fd` is whether the stream is open, and
`rx` holds those which `rx_callback` writes. -/
structure Globals (F : Type*) where
  numSamples : UInt32
  numSweeps : UInt32
  numRanges : ℕ
  frequencies : ℕ → UInt16
  stepCount : Int32
  fd : Bool
  amp : Bool
  ampEnable : UInt32
  antenna : Bool
  antennaEnable : UInt32
  binaryOutput : Bool
  ifftOutput : Bool
  oneShot : Bool
  finiteMode : Bool
  fftSize : ℕ
  window : ℕ → F
  device : Option DeviceHandle
  rx : State F

/-- What reaches the globals from outside while `hackrf_sweep` runs: a call of
`rx_callback`, or a signal. -/
inductive Incoming where
  | transfer (transfer : Transfer) (time : Timeval)
  | signal

inductive ArgumentError where
  | tooManyRanges
  | emptyRange
  | aboveMaximum
  | samplesNotMultiple
  | tooFewSamples
  | ampEnable
  | antennaEnable
  | outputsExclusive
  | ifftRanges
  | binWidthTooLarge
  | binWidthTooSmall
  deriving DecidableEq, Repr

def ArgumentError.message : ArgumentError → String
  | .tooManyRanges =>
      "argument error: specify a maximum of 10 frequency ranges.\n"
  | .emptyRange => "argument error: freq_max must be greater than freq_min.\n"
  | .aboveMaximum => "argument error: freq_max may not be higher than 7250.\n"
  | .samplesNotMultiple =>
      "warning: num_samples (-n) must be a multiple of 8192\n"
  | .tooFewSamples => "warning: num_samples (-n) must be at least 8192\n"
  | .ampEnable => "argument error: amp_enable shall be 0 or 1.\n"
  | .antennaEnable => "argument error: antenna_enable shall be 0 or 1.\n"
  | .outputsExclusive => "argument error: binary output (-B) and IFFT output " ++
      "(-I) are mutually exclusive.\n"
  | .ifftRanges => "argument error: only one frequency range is supported in " ++
      "IFFT output (-I) mode.\n"
  | .binWidthTooLarge => "argument error: FFT bin width (-w) must be no more " ++
      "than one quarter the sample rate\n"
  | .binWidthTooSmall => "argument error: FFT bin width (-w) too small, " ++
      "resulted in more than 8184 FFT bins\n"

variable {F : Type*}

def Incoming.deliver (ops : FloatOps F) (settings : Settings F)
    (state : State F) : Incoming → State F
  | .transfer received time => (state.rxCallback ops settings received time).2
  | .signal => { state with doExit := true }

namespace Globals

def initial (zero : F) : Globals F where
  numSamples := UInt32.ofNat samplesPerBlock
  numSweeps := 0
  numRanges := 0
  frequencies := fun _ => 0
  stepCount := 0
  fd := false
  amp := false
  ampEnable := 0
  antenna := false
  antennaEnable := 0
  binaryOutput := false
  ifftOutput := false
  oneShot := false
  finiteMode := false
  fftSize := 20
  window := fun _ => zero
  device := none
  rx := State.initial zero

/-- What `rx_callback` reads of the globals. -/
def settings (fftSize : FftSize) (globals : Globals F) : Settings F where
  fd := globals.fd
  numSamples := globals.numSamples
  numSweeps := globals.numSweeps
  frequencies := globals.frequencies
  stepCount := globals.stepCount.toInt.toNat
  fftSize := fftSize
  binaryOutput := globals.binaryOutput
  ifftOutput := globals.ifftOutput
  oneShot := globals.oneShot
  finiteMode := globals.finiteMode
  window := globals.window

def setRx (rx : State F) (globals : Globals F) : Globals F :=
  { globals with rx := rx }

def receive (ops : FloatOps F) (settings : Settings F)
    (incoming : List Incoming) (globals : Globals F) : Globals F :=
  globals.setRx (incoming.foldl (Incoming.deliver ops settings) globals.rx)

/-! ## Argument checks -/

def appendRange (lo hi : UInt16) (globals : Globals F) : Globals F :=
  { globals with
    frequencies := Function.update
      (Function.update globals.frequencies (2 * globals.numRanges) lo)
      (2 * globals.numRanges + 1) hi
    numRanges := globals.numRanges + 1 }

/-- The checks before the range is stored, and the store. -/
def checkRange (args : HackrfSweepArgs) (globals : Globals F) :
    Except ArgumentError (Globals F) :=
  if maxSweepRanges ≤ globals.numRanges then .error .tooManyRanges
  else if args.freqMax ≤ args.freqMin then .error .emptyRange
  else if freqMaxMhz < args.freqMax.toNat then .error .aboveMaximum
  else .ok (globals.appendRange args.freqMin.toUInt16 args.freqMax.toUInt16)

/-- The checks after it, the rounding of `fftSize` and the window. -/
def checkOptions (ops : SweepOps F) (args : HackrfSweepArgs)
    (globals : Globals F) : Except ArgumentError FftSize × Globals F :=
  if globals.numSamples.toNat % samplesPerBlock ≠ 0 then
    (.error .samplesNotMultiple, globals)
  else if globals.numSamples.toNat < samplesPerBlock then
    (.error .tooFewSamples, globals)
  else if globals.amp ∧ 1 < globals.ampEnable then (.error .ampEnable, globals)
  else if globals.antenna ∧ 1 < globals.antennaEnable then
    (.error .antennaEnable, globals)
  else
    -- not reached: a range has just been stored
    let globals :=
      if globals.numRanges = 0 then
        globals.appendRange args.freqMin.toUInt16 args.freqMax.toUInt16
      else globals
    if globals.binaryOutput ∧ globals.ifftOutput then
      (.error .outputsExclusive, globals)
    else if globals.ifftOutput ∧ 1 < globals.numRanges then
      (.error .ifftRanges, globals)
    else if globals.fftSize < 4 then (.error .binWidthTooLarge, globals)
    else
      match acceptFftSize globals.fftSize with
      | none => (.error .binWidthTooSmall, globals)
      | some fftSize =>
          (.ok fftSize, { globals with
            fftSize := fftSize.size
            window := fun i =>
              if i < fftSize.size then ops.hann fftSize.size i
              else globals.window i })

def checkArguments (ops : SweepOps F) (args : HackrfSweepArgs)
    (globals : Globals F) : Except ArgumentError FftSize × Globals F :=
  match globals.checkRange args with
  | .error error => (.error error, globals)
  | .ok globals => globals.checkOptions ops args

/-! ## Planning -/

/-- One iteration of the planning loop.  `TUNE_STEP` is an
`unsigned long long`, so the arithmetic is done with 64 bits. -/
def planRange (globals : Globals F) (i : ℕ) : Globals F :=
  let lo := globals.frequencies (2 * i)
  let hi := globals.frequencies (2 * i + 1)
  let stepCount :=
    1 + (hi.toUInt64 - lo.toUInt64 - 1) / UInt64.ofNat tuneStep
  { globals with
    stepCount := stepCount.toUInt32.toInt32
    frequencies := Function.update globals.frequencies (2 * i + 1)
      (lo + stepCount.toUInt16 * UInt16.ofNat tuneStep) }

def planRanges (globals : Globals F) : Globals F :=
  (List.range globals.numRanges).foldl planRange globals

end Globals

/-! ## Calls of libhackrf -/

inductive SweepStyle where
  | linear
  | interleaved
  deriving DecidableEq, Repr

inductive DeviceCall where
  | setSampleRateManual (freqHz divider : UInt32)
  | setBasebandFilterBandwidth (bandwidthHz : UInt32)
  | setVgaGain (value : UInt32)
  | setLnaGain (value : UInt32)
  | startRx
  | initSweep (frequencyList : List UInt16) (numRanges : ℕ)
      (numBytes stepWidth offset : UInt32) (style : SweepStyle)
  | setAmpEnable (value : UInt8)
  | setAntennaEnable (value : UInt8)
  | isStreaming
  | stopRx
  | close
  deriving DecidableEq, Repr

/-- What a call of the service does: an argument error, a call of libhackrf
with its result, or the entry into the streaming loop.  A call on the device
comes with the values of `device` and `fd` at that time. -/
inductive Event where
  | rejected (message : String)
  | init (result : HackrfError)
  | openBySerial (result : HackrfError) (device : Option DeviceHandle)
  | call (device : Option DeviceHandle) (fd : Bool) (function : DeviceCall)
      (result : HackrfError)
  | enterLoop (doExit sweepStarted : Bool) (sweepCount : UInt64)
  | exit (result : HackrfError)
  deriving DecidableEq, Repr

inductive ExitCode where
  | success
  | failure
  deriving DecidableEq, Repr

/-- An error code as an `int`. -/
def toInt32 (result : HackrfError) : Int32 := Int32.ofInt result.code

/-- What arrives during an iteration of the streaming loop, before and after
`byte_count` is reset. -/
structure Tick where
  asleep : List Incoming
  awake : List Incoming

/-- What libhackrf answers in one call of `hackrf_sweep`, and what arrives.
`ticks` are the iterations of the streaming loop which find the device
streaming, and `ended` is what `hackrf_is_streaming` answers after them.  If
the set-up fails, `late` is what arrives until the next call. -/
structure SweepOutcomes where
  vgaGain : HackrfError
  lnaGain : HackrfError
  startRx : HackrfError
  initSweep : HackrfError
  ampEnable : HackrfError
  antennaEnable : HackrfError
  early : List Incoming
  ticks : List Tick
  ended : HackrfError
  ended_ne : ended ≠ .true
  finalStreaming : HackrfError
  late : List Incoming
  stopRx : HackrfError
  closeStopRx : HackrfError
  closeStopTx : HackrfError

/-- What libhackrf answers in one call of `hackRFSweepThread`. -/
structure OpenThreadOutcomes where
  libusbInit : Bool
  found : Bool
  opened : OpenOutcomes
  sampleRate : HackrfError
  bandwidth : HackrfError

/-- What a call of `hackrf_sweep` returns and leaves behind. -/
structure SweepReturn (F : Type*) where
  code : ExitCode
  events : List Event
  globals : Globals F
  library : Library

/-! ## `hackrf_sweep` -/

namespace Globals

def call (globals : Globals F) (function : DeviceCall) (result : HackrfError) :
    Event :=
  .call globals.device globals.fd function result

def initSweepCall (globals : Globals F) : DeviceCall :=
  .initSweep ((List.range (2 * globals.numRanges)).map globals.frequencies)
    globals.numRanges (globals.numSamples * 2)
    (UInt32.ofNat (tuneStep * freqOneMhz)) (UInt32.ofNat offset) .interleaved

/-- A call that is made only if `flag` is set, and whether the set-up goes on
after it. -/
def enable (flag : Bool) (function : DeviceCall) (result : HackrfError)
    (globals : Globals F) : Bool × List Event :=
  if flag then (result == .success, [globals.call function result])
  else (true, [])

/-- The calls from the gains to the antenna, and whether they succeed. -/
def setUp (args : HackrfSweepArgs) (outs : SweepOutcomes)
    (globals : Globals F) : Bool × List Event :=
  let events := [
    globals.call (.setVgaGain args.vgaGain) outs.vgaGain,
    globals.call (.setLnaGain args.lnaGain) outs.lnaGain,
    globals.call .startRx outs.startRx]
  if toInt32 outs.vgaGain ||| toInt32 outs.lnaGain ||| toInt32 outs.startRx ≠ 0 then
    (false, events)
  else
    let events := events ++ [globals.call globals.initSweepCall outs.initSweep]
    if outs.initSweep ≠ .success then (false, events)
    else
      let (succeeds, amp) := globals.enable globals.amp
        (.setAmpEnable globals.ampEnable.toUInt8) outs.ampEnable
      if succeeds then
        let (succeeds, antenna) := globals.enable globals.antenna
          (.setAntennaEnable globals.antennaEnable.toUInt8) outs.antennaEnable
        (succeeds, events ++ amp ++ antenna)
      else (false, events ++ amp)

def resetByteCount (globals : Globals F) : Globals F :=
  globals.setRx { globals.rx with byteCount := 0 }

def streamLoop (ops : FloatOps F) (settings : Settings F)
    (ended : HackrfError) :
    List Tick → Globals F → ExitCode × List Event × Globals F
  | [], globals => (.success, [globals.call .isStreaming ended], globals)
  | tick :: rest, globals =>
      let asked := globals.call .isStreaming .true
      if globals.rx.doExit then (.success, [asked], globals)
      else
        let globals := globals.receive ops settings tick.asleep
        if globals.rx.byteCount = 0 then (.failure, [asked], globals)
        else
          let (code, events, globals) :=
            streamLoop ops settings ended rest
              (globals.resetByteCount.receive ops settings tick.awake)
          (code, asked :: events, globals)

def shutDown (outs : SweepOutcomes) (globals : Globals F) (lib : Library) :
    List Event × Library :=
  match globals.device with
  | none => ([], lib)
  | some _ =>
      let closed :=
        lib.hackrfClose globals.device outs.closeStopRx outs.closeStopTx
      let exited := closed.2.hackrfExit
      ([globals.call .stopRx outs.stopRx, globals.call .close closed.1,
        .exit exited.1], exited.2)

/-- `hackrf_sweep` after a successful set-up. -/
def stream (ops : FloatOps F) (settings : Settings F) (outs : SweepOutcomes)
    (globals : Globals F) (lib : Library) : SweepReturn F :=
  let globals := globals.receive ops settings outs.early
  let entered : Event := .enterLoop globals.rx.doExit globals.rx.sweepStarted
    globals.rx.sweepCount
  let (code, events, globals) :=
    globals.streamLoop ops settings outs.ended outs.ticks
  let asked := globals.call .isStreaming outs.finalStreaming
  let globals := globals.receive ops settings outs.late
  let (closed, lib) := globals.shutDown outs lib
  { code := code
    events := entered :: events ++ asked :: closed
    globals := { globals with fd := false }
    library := lib }

/-- `hackrf_sweep`.  What arrives during the set-up, which does not depend on
it, is delivered at the end of it.  The argument `num_sweeps` is stored in a
local variable of the same name and not used. -/
def hackrfSweep (ops : SweepOps F) (args : HackrfSweepArgs)
    (outs : SweepOutcomes) (globals : Globals F) (lib : Library) :
    SweepReturn F :=
  match globals.checkArguments ops args with
  | (.error error, globals) =>
      ⟨.failure, [.rejected error.message], globals, lib⟩
  | (.ok fftSize, globals) =>
      let globals := globals.planRanges
      let settings := globals.settings fftSize
      let (succeeds, events) := globals.setUp args outs
      if succeeds then
        let result :=
          globals.stream ops.toFloatOps settings outs lib
        { result with events := events ++ result.events }
      else
        ⟨.failure, events,
          globals.receive ops.toFloatOps settings outs.late, lib⟩

/-! ## `hackRFSweepThread` -/

/-- `hackRFSweepThread`, which opens the device; `serialNumber` is whether the
number, passed as a pointer, is not `NULL`. -/
def hackRFSweepThread (serialNumber : Bool) (outs : OpenThreadOutcomes)
    (globals : Globals F) (lib : Library) :
    List Event × Globals F × Library :=
  let (result, lib) := lib.hackrfInit outs.libusbInit
  let events := [.init result]
  if result ≠ .success then (events, globals, lib)
  else
    let opened :=
      lib.hackrfOpenBySerial serialNumber true outs.found outs.opened
    let globals := { globals with device := opened.device <|> globals.device }
    let lib := opened.library
    let events := events ++ [.openBySerial opened.code opened.device]
    if opened.code ≠ .success then (events, globals, lib)
    else
      let events := events ++ [globals.call
        (.setSampleRateManual (UInt32.ofNat defaultSampleRateHz) 1)
        outs.sampleRate]
      if outs.sampleRate ≠ .success then (events, globals, lib)
      else
        let events := events ++ [globals.call
          (.setBasebandFilterBandwidth
            (UInt32.ofNat defaultBasebandFilterBandwidth)) outs.bandwidth]
        (events, globals, lib)

end Globals

/-! ## Runs -/

/-- A call of the service, or a signal between two calls. -/
inductive Request where
  | open (serialNumber : Bool) (outs : OpenThreadOutcomes)
  | sweep (args : HackrfSweepArgs) (outs : SweepOutcomes)
  | signal

/-- The globals of the service and of the library, and the events so far. -/
structure Service (F : Type*) where
  globals : Globals F
  library : Library
  log : List Event

namespace Service

def initial (zero : F) : Service F where
  globals := .initial zero
  library := .initial
  log := []

def step (ops : SweepOps F) (service : Service F) : Request → Service F
  | .open serialNumber outs =>
      let (events, globals, lib) :=
        service.globals.hackRFSweepThread serialNumber outs service.library
      ⟨globals, lib, service.log ++ events⟩
  | .sweep args outs =>
      let result := service.globals.hackrfSweep ops args outs service.library
      ⟨result.globals, result.library, service.log ++ result.events⟩
  | .signal =>
      { service with
        globals :=
          service.globals.setRx { service.globals.rx with doExit := true } }

def run (ops : SweepOps F) (service : Service F) (requests : List Request) :
    Service F :=
  requests.foldl (step ops) service

end Service

/-! ## Sample calls -/

/-- Values without content, for runs of which only the control flow matters. -/
def SweepOps.forgetful (toUint32 : Uint32Conversion) : SweepOps Unit where
  toFloatOps := .forgetful toUint32
  hann := fun _ _ => ()

def openFirst : OpenThreadOutcomes where
  libusbInit := true
  found := true
  opened := {
    openWithVidPid := fun _ => true
    setup := {
      configuration := {
        current := some 1
        detachBefore := ⟨true, []⟩
        setConfiguration := true
        detachAfter := ⟨true, []⟩ }
      claim := true
      record := true
      transfers := ⟨true, fun _ => true⟩ } }
  sampleRate := .success
  bandwidth := .success

def sweepArgs : HackrfSweepArgs where
  freqMin := 2400
  freqMax := 2500
  requestedFftBinWidth := 1000000
  numSweeps := 1
  vgaGain := 20
  lnaGain := 16

/-- Every call succeeds, and the stream ends at once, as it does when
`rx_callback` finds no `fd`. -/
def endsAtOnce : SweepOutcomes where
  vgaGain := .success
  lnaGain := .success
  startRx := .success
  initSweep := .success
  ampEnable := .success
  antennaEnable := .success
  early := []
  ticks := []
  ended := .streamingStopped
  ended_ne := by decide
  finalStreaming := .streamingStopped
  late := []
  stopRx := .success
  closeStopRx := .success
  closeStopTx := .success

end HackRF.Sweep
