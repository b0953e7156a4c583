import HackRF.SweepPlan

/-!
# `rx_callback` of the sweeper

The callback walks through the sixteen blocks of a transfer with a pointer
into its buffer, keeps the state of the sweep in global variables and writes
to the stream `fd`.  Arrays are functions from their indices.  The operations
of single-precision arithmetic, `log2`, FFTW and the conversion of a double to
`uint32_t` are outside the repository and appear as parameters; double
arithmetic is rounded exactly.

What is written to `fd` is recorded call by call.  The history variables
`transformed` and `ifftWritten` record which samples were transformed and
which elements of `ifftwIn` were assigned.
-/

namespace HackRF.Sweep

structure Timeval where
  tvSec : ℤ
  tvUsec : ℤ
  deriving DecidableEq

/-- The conversion of a double to `uint32_t`: truncation if the result fits,
and otherwise undefined, so some 32-bit value. -/
structure Uint32Conversion where
  toFun : ℚ → ℕ
  lt : ∀ x, toFun x < 2 ^ 32
  truncates : ∀ x, 0 ≤ x → x < 2 ^ 32 → toFun x = ⌊x⌋₊

/-- The conversion which truncates and keeps the low 32 bits. -/
def Uint32Conversion.wrapping : Uint32Conversion where
  toFun := fun x => ⌊x⌋₊ % 2 ^ 32
  lt := fun _ => Nat.mod_lt _ (by decide)
  truncates := fun x hx hlt => by
    refine Nat.mod_eq_of_lt ?_
    rw [Nat.floor_lt hx]
    exact_mod_cast hlt

/-- Single-precision arithmetic on values of type `F`, and FFTW.  `ofInt n` is
the conversion of an `int` (and the constant `n.0f`), `decibels x` is
`(float) (log2(x) * 10.0f / log2(10.0f))` with the C library's `log2`, and
`forward n` and `backward n` execute FFTW plans of size `n`. -/
structure FloatOps (F : Type*) where
  ofInt : ℤ → F
  add : F → F → F
  mul : F → F → F
  div : F → F → F
  decibels : F → F
  forward : ℕ → (ℕ → F × F) → ℕ → F × F
  backward : ℕ → (ℕ → F × F) → ℕ → F × F
  toUint32 : Uint32Conversion

namespace FloatOps

variable {F : Type*} (ops : FloatOps F)

/-- `sample * window * 1.0f / 128.0f`. -/
def windowed (sample : Int8) (window : F) : F :=
  ops.div (ops.mul (ops.mul (ops.ofInt sample.toInt) window) (ops.ofInt 1))
    (ops.ofInt 128)

/-- `1.0f / n`. -/
def reciprocal (n : ℕ) : F := ops.div (ops.ofInt 1) (ops.ofInt n)

def logPower (bin : F × F) (scale : F) : F :=
  let re := ops.mul bin.1 scale
  let im := ops.mul bin.2 scale
  let magsq := ops.add (ops.mul re re) (ops.mul im im)
  ops.decibels magsq

/-- Samples without their values, for runs of which only the control flow
matters. -/
def forgetful (toUint32 : Uint32Conversion) : FloatOps Unit where
  ofInt := fun _ => ()
  add := fun _ _ => ()
  mul := fun _ _ => ()
  div := fun _ _ => ()
  decibels := fun _ => ()
  forward := fun _ _ _ => ((), ())
  backward := fun _ _ _ => ((), ())
  toUint32 := toUint32

end FloatOps

/-- The globals which `rx_callback` only reads; `fd` is whether the stream is
open. -/
structure Settings (F : Type*) where
  fd : Bool
  numSamples : UInt32
  numSweeps : UInt32
  frequencies : ℕ → UInt16
  stepCount : ℕ
  fftSize : FftSize
  binaryOutput : Bool
  ifftOutput : Bool
  oneShot : Bool
  finiteMode : Bool
  window : ℕ → F

/-- One call of `fprintf` or `fwrite` on `fd`, with its arguments. -/
inductive Chunk (F : Type*) where
  | head (stamp : Timeval) (hzLow hzHigh : UInt64) (binWidth : ℚ)
      (fftSize : ℕ)
  | level (power : F)
  | newline
  | float (value : F)

/-- A `hackrf_sweep_vals` record as `rx_callback` fills it; `none` is a field
which it leaves alone. -/
structure SweepVals (F : Type*) where
  tvUsec : UInt64
  lowfreq : UInt64
  upperfreq : UInt64
  freqmin : UInt64
  freqmid : Option UInt64
  freqmax : UInt64
  fftBinWidth : UInt64
  fftSize : Option UInt64
  bandedge : Option UInt64
  recordLength : Option UInt16
  power : List F

/-- A block which has been transformed: its header frequency, the timestamp in
force, and the sample bytes that were read. -/
structure Transformed where
  frequency : UInt64
  timeStamp : Timeval
  samples : List (UInt8 × UInt8)
  deriving DecidableEq

/-- The globals which `rx_callback` writes, the records it has allocated, and
the history variables. -/
structure State (F : Type*) where
  byteCount : UInt32
  sweepCount : UInt64
  doExit : Bool
  sweepStarted : Bool
  timeStamp : Timeval
  fftwIn : ℕ → F × F
  fftwOut : ℕ → F × F
  power : ℕ → F
  ifftwIn : ℕ → F × F
  ifftwOut : ℕ → F × F
  ifftIdx : ℕ
  output : List (Chunk F)
  records : List (SweepVals F)
  transformed : List Transformed
  ifftWritten : List ℕ

structure Transfer where
  buffer : ℕ → UInt8
  validLength : UInt32

/-- What an iteration of the block loop leads to: the next one, with the
pointer `buf` it starts from, or `return 0`. -/
inductive Flow where
  | next (buf : ℕ)
  | exit
  deriving DecidableEq

variable {F : Type*}

def State.initial (zero : F) : State F where
  byteCount := 0
  sweepCount := 0
  doExit := false
  sweepStarted := false
  timeStamp := ⟨0, 0⟩
  fftwIn := fun _ => (zero, zero)
  fftwOut := fun _ => (zero, zero)
  power := fun _ => zero
  ifftwIn := fun _ => (zero, zero)
  ifftwOut := fun _ => (zero, zero)
  ifftIdx := 0
  output := []
  records := []
  transformed := []
  ifftWritten := []

namespace Settings

variable (settings : Settings F)

def ifftBins : ℕ := settings.fftSize.size * settings.stepCount

def startFrequency : UInt64 :=
  UInt64.ofNat freqOneMhz * (settings.frequencies 0).toUInt64

/-- The timestamp of a start-frequency block: the transfer time, advanced by
the duration of the `j` tunings before the block. -/
def blockTimeStamp (time : Timeval) (j : ℕ) : Timeval :=
  let usec := time.tvUsec +
    (((settings.numSamples.toNat + throwawayBlocks * samplesPerBlock) % 2 ^ 32 *
      j * freqOneMhz / defaultSampleRateHz : ℕ) : ℤ)
  if 999999 < usec then
    ⟨time.tvSec + usec / 1000000, usec % 1000000⟩
  else ⟨time.tvSec, usec⟩

end Settings

def maxFrequency : UInt64 := UInt64.ofNat (freqMaxMhz * freqOneMhz)

def hasMarker (ubuf : ℕ → UInt8) : Bool :=
  ubuf 0 == 0x7F && ubuf 1 == 0x7F

def headerFrequency (ubuf : ℕ → UInt8) : UInt64 :=
  (ubuf 9).toUInt64 <<< 56 ||| (ubuf 8).toUInt64 <<< 48 |||
    (ubuf 7).toUInt64 <<< 40 ||| (ubuf 6).toUInt64 <<< 32 |||
    (ubuf 5).toUInt64 <<< 24 ||| (ubuf 4).toUInt64 <<< 16 |||
    (ubuf 3).toUInt64 <<< 8 ||| (ubuf 2).toUInt64

def sampleBytes (buf : ℕ → UInt8) (i : ℕ) : UInt8 × UInt8 :=
  (buf (i * 2), buf (i * 2 + 1))

namespace State

variable (ops : FloatOps F) (settings : Settings F)

/-! ## The start of a sweep -/

/-- The inverse transform of a finished sweep, written to `fd`. -/
def writeIfft (state : State F) : State F :=
  let bins := settings.ifftBins
  let transform := ops.backward bins state.ifftwIn
  let ifftwOut := fun i =>
    if i < bins then
      (ops.mul (transform i).1 (ops.reciprocal bins),
        ops.mul (transform i).2 (ops.reciprocal bins))
    else state.ifftwOut i
  { state with
    ifftwOut := ifftwOut
    output := state.output ++ (List.range bins).flatMap fun i =>
      [.float (ifftwOut i).1, .float (ifftwOut i).2] }

/-- A sweep is complete: it is counted, and `do_exit` is set at the bound. -/
def completeSweep (state : State F) : State F :=
  let state := { state with sweepCount := state.sweepCount + 1 }
  if settings.oneShot then { state with doExit := true }
  else if settings.finiteMode ∧
      state.sweepCount = settings.numSweeps.toUInt64 then
    { state with doExit := true }
  else state

/-- What a start-frequency block does before it is transformed itself. -/
def startSweep (time : Timeval) (j : ℕ) (state : State F) : State F :=
  let state :=
    if state.sweepStarted then
      (if settings.ifftOutput then state.writeIfft ops settings
        else state).completeSweep settings
    else state
  { state with
    sweepStarted := true
    timeStamp := settings.blockTimeStamp time j }

/-! ## One block -/

/-- The samples at `buf` are windowed and transformed, and the power of every
bin is computed. -/
def transformBlock (frequency : UInt64) (buf : ℕ → UInt8) (state : State F) :
    State F :=
  let size := settings.fftSize.size
  let fftwIn := fun i =>
    if i < size then
      (ops.windowed (sampleBytes buf i).1.toInt8 (settings.window i),
        ops.windowed (sampleBytes buf i).2.toInt8 (settings.window i))
    else state.fftwIn i
  let fftwOut := ops.forward size fftwIn
  let power := fun i =>
    if i < size then ops.logPower (fftwOut i) (ops.reciprocal size)
    else state.power i
  { state with
    fftwIn := fftwIn
    fftwOut := fftwOut
    power := power
    transformed := state.transformed ++ [{
      frequency := frequency
      timeStamp := state.timeStamp
      samples := (List.range size).map (sampleBytes buf) }] }

/-- The `fftSize / 4` powers from bin `1 + offset` on. -/
def powers (offset : ℕ) (state : State F) : List F :=
  (List.range settings.fftSize.quarter).map fun i =>
    state.power (i + 1 + offset)

/-- `fft_bin_width` stored in an integer field. -/
def binWidthField : UInt64 := UInt64.ofNat ⌊settings.fftSize.binWidth⌋₊

def emitBinary (frequency : UInt64) (state : State F) : State F :=
  { state with
    records := state.records ++ [{
      tvUsec := UInt64.ofInt state.timeStamp.tvUsec
      lowfreq := frequency
      upperfreq := frequency + UInt64.ofNat (defaultSampleRateHz / 4)
      freqmin := frequency + UInt64.ofNat (defaultSampleRateHz / 2)
      freqmid := none
      freqmax := frequency + UInt64.ofNat (defaultSampleRateHz * 3 / 4)
      fftBinWidth := binWidthField settings
      fftSize := some (UInt64.ofNat settings.fftSize.size)
      bandedge := some frequency
      recordLength := some 4
      power := state.powers settings (settings.fftSize.size / 8) }] }

/-- `ifft_idx` as first computed from the header frequency. -/
def ifftIndex (frequency : UInt64) : ℕ :=
  let offset := (frequency - settings.startFrequency).toNat
  let bin := ops.toUint32.toFun (FloatRounding.roundHalfAway
    (FloatRounding.fl 53
      (FloatRounding.fl 53 offset / settings.fftSize.binWidth)))
  (bin + settings.ifftBins / 2) % 2 ^ 32 % settings.ifftBins

/-- `ifft_idx` after the second rotation. -/
def ifftNextIndex (ifftIdx : ℕ) : ℕ :=
  (ifftIdx + settings.fftSize.size / 2) % 2 ^ 32 % settings.ifftBins

/-- The assignments `ifftwIn[ifft_idx + i] = fftwOut[i + 1 + offset]`. -/
def ifftWrites (ifftIdx offset : ℕ) (state : State F) : List (ℕ × (F × F)) :=
  (List.range settings.fftSize.quarter).map fun i =>
    (ifftIdx + i, state.fftwOut (i + 1 + offset))

def emitIfft (frequency : UInt64) (state : State F) : State F :=
  let first := ifftIndex ops settings frequency
  let second := ifftNextIndex settings first
  let writes :=
    state.ifftWrites settings first (settings.fftSize.size * 5 / 8) ++
      state.ifftWrites settings second (settings.fftSize.size / 8)
  { state with
    ifftIdx := second
    ifftwIn := writes.foldl
      (fun ifftwIn write => Function.update ifftwIn write.1 write.2)
      state.ifftwIn
    ifftWritten := state.ifftWritten ++ writes.map Prod.fst }

def textRow (hzLow hzHigh : UInt64) (offset : ℕ) (state : State F) :
    List (Chunk F) :=
  .head state.timeStamp hzLow hzHigh settings.fftSize.binWidth
      settings.fftSize.size ::
    (state.powers settings offset).map .level ++ [.newline]

/-- The text branch: two rows, and then the powers of the first row again
while the record is filled.  The statement which allocates the record's power
array does not compile as written; it is read as what its size says. -/
def emitText (frequency : UInt64) (state : State F) : State F :=
  let size := settings.fftSize.size
  { state with
    output := state.output ++
      state.textRow settings frequency
        (frequency + UInt64.ofNat (defaultSampleRateHz / 4)) (size * 5 / 8) ++
      state.textRow settings
        (frequency + UInt64.ofNat (defaultSampleRateHz / 2))
        (frequency + UInt64.ofNat (defaultSampleRateHz * 3 / 4)) (size / 8) ++
      (state.powers settings (size * 5 / 8)).map .level
    records := state.records ++ [{
      tvUsec := UInt64.ofInt state.timeStamp.tvUsec
      lowfreq := frequency
      upperfreq := frequency
      freqmin := frequency + UInt64.ofNat (defaultSampleRateHz / 2)
      freqmid := some (frequency + UInt64.ofNat (defaultSampleRateHz / 4))
      freqmax := frequency + UInt64.ofNat (defaultSampleRateHz * 3 / 4)
      fftBinWidth := binWidthField settings
      fftSize := none
      bandedge := none
      recordLength := none
      power := state.powers settings (size * 5 / 8) }] }

def emitBlock (frequency : UInt64) (state : State F) : State F :=
  if settings.binaryOutput then state.emitBinary settings frequency
  else if settings.ifftOutput then state.emitIfft ops settings frequency
  else state.emitText settings frequency

/-! ## The block loop -/

/-- One iteration of the block loop, with `buf` pointing into `buffer`. -/
def rxBlock (buffer : ℕ → UInt8) (time : Timeval) (j buf : ℕ)
    (state : State F) : Flow × State F :=
  let ubuf := fun i => buffer (buf + i)
  if hasMarker ubuf then
    let frequency := headerFrequency ubuf
    let state :=
      if frequency = settings.startFrequency then
        state.startSweep ops settings time j
      else state
    if state.doExit then (.exit, state)
    else if state.sweepStarted = false then
      (.next (buf + bytesPerBlock), state)
    else if maxFrequency < frequency then
      (.next (buf + bytesPerBlock), state)
    else
      let buf := buf + (bytesPerBlock - settings.fftSize.size * 2)
      let state :=
        state.transformBlock ops settings frequency fun i => buffer (buf + i)
      let buf := buf + settings.fftSize.size * 2
      (.next buf, state.emitBlock ops settings frequency)
  else (.next (buf + bytesPerBlock), state)

/-- The remaining `n` iterations of the block loop, from iteration `j`. -/
def rxLoop (buffer : ℕ → UInt8) (time : Timeval) :
    ℕ → ℕ → ℕ → State F → State F
  | 0, _, _, state => state
  | n + 1, j, buf, state =>
      match state.rxBlock ops settings buffer time j buf with
      | (.next buf, state) => state.rxLoop buffer time n (j + 1) buf
      | (.exit, state) => state

/-- `rx_callback`, with the time at which it is called. -/
def rxCallback (transfer : Transfer) (time : Timeval) (state : State F) :
    ℤ × State F :=
  if settings.fd = false then (-1, state)
  else
    (0, { state with
      byteCount := state.byteCount + transfer.validLength }.rxLoop ops settings
        transfer.buffer time blocksPerTransfer 0 0)

end State

end HackRF.Sweep
