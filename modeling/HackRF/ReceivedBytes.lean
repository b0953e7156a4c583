import HackRF.SweepProgress

/-!
# What the callback makes of bytes that were not received

A transfer may bring fewer bytes than its buffer has room for; the rest of the
buffer is left over from earlier transfers.  `rx_callback` counts the valid
bytes and walks through all sixteen blocks nevertheless, up to the last byte of
the buffer.  Two transfers with the same valid bytes can therefore have
different results as soon as a byte is missing, unless the window takes the
sample it belongs to out, as its last coefficient 0 does.
-/

namespace HackRF.Sweep

variable {F : Type*}

abbrev transferBytes : ℕ := blocksPerTransfer * bytesPerBlock

/-- The bytes before the samples of the last block which have to be
received. -/
abbrev lastHeaderEnd : ℕ := 15 * bytesPerBlock + 10

namespace State

/-- What a call has written, counted and recorded, and what it leaves for later
calls to read.  The other arrays are filled anew before they are read. -/
structure Result (F : Type*) where
  output : List (Chunk F)
  records : List (SweepVals F)
  sweepCount : UInt64
  sweepStarted : Bool
  doExit : Bool
  timeStamp : Timeval
  ifftwIn : ℕ → F × F

def result (state : State F) : Result F where
  output := state.output
  records := state.records
  sweepCount := state.sweepCount
  sweepStarted := state.sweepStarted
  doExit := state.doExit
  timeStamp := state.timeStamp
  ifftwIn := state.ifftwIn

end State

/-- From any state, two transfers with the same valid bytes have the same
result. -/
def UsesOnlyReceived (ops : FloatOps F) (settings : Settings F)
    (validLength : UInt32) : Prop :=
  ∀ (state : State F) (time : Timeval) (first second : ℕ → UInt8),
    (∀ i < validLength.toNat, first i = second i) →
      (state.rxCallback ops settings ⟨first, validLength⟩ time).2.result =
        (state.rxCallback ops settings ⟨second, validLength⟩ time).2.result

/-! ## The arithmetic -/

namespace FloatOps

variable (ops : FloatOps F)

/-- The same arithmetic with other functions of the C library and of FFTW. -/
def withLibraries (decibels : F → F)
    (forward backward : ℕ → (ℕ → F × F) → ℕ → F × F) : FloatOps F :=
  { ops with
    decibels := decibels
    forward := forward
    backward := backward }

/-- The square of the magnitude, of which `logPower` takes the logarithm. -/
def magsq (bin : F × F) (scale : F) : F :=
  let re := ops.mul bin.1 scale
  let im := ops.mul bin.2 scale
  ops.add (ops.mul re re) (ops.mul im im)

/-- Not all bins of a transform of this size have the same magnitude. -/
def TellsMagnitudes (size : ℕ) : Prop :=
  ∃ bin other : F × F,
    ops.magsq bin (ops.reciprocal size) ≠ ops.magsq other (ops.reciprocal size)

end FloatOps

namespace Settings

variable (ops : FloatOps F) (settings : Settings F)

/-- Where sample `i` of the last block ends in the buffer. -/
def lastSampleEnd (i : ℕ) : ℕ :=
  transferBytes - settings.fftSize.size * 2 + (i * 2 + 2)

/-- Each sample of the last block which has not been received as a whole meets
a window coefficient, such as 0, which makes the same of all samples. -/
def HidesMissing (validLength : UInt32) : Prop :=
  ∀ i < settings.fftSize.size,
    validLength.toNat < settings.lastSampleEnd i →
      ∀ sample other : Int8,
        ops.windowed sample (settings.window i) =
          ops.windowed other (settings.window i)

/-- What becomes of sample `i` of a block. -/
def sampleInput (block : Block) (i : ℕ) : F × F :=
  (ops.windowed (sampleBytes (block.sampleBuf settings) i).1.toInt8
      (settings.window i),
    ops.windowed (sampleBytes (block.sampleBuf settings) i).2.toInt8
      (settings.window i))

/-- The input of the transform for a block, in an array with these contents
behind it. -/
def fftInput (rest : ℕ → F × F) (block : Block) (i : ℕ) : F × F :=
  if i < settings.fftSize.size then settings.sampleInput ops block i
  else rest i

def level (rest : ℕ → F × F) (block : Block) (bin : ℕ) : F :=
  ops.logPower
    (ops.forward settings.fftSize.size (settings.fftInput ops rest block) bin)
    (ops.reciprocal settings.fftSize.size)

end Settings

/-! ## Blocks with the same bytes -/

structure Block.AgreesBelow (size : ℕ) (first second : Block) : Prop where
  time : first.time = second.time
  slot : first.slot = second.slot
  bytes : ∀ i < size, first.bytes i = second.bytes i

section Blocks

variable {ops : FloatOps F} {settings : Settings F} {state : State F}
  {first second : Block} {size : ℕ}

theorem Block.AgreesBelow.mono {smaller : ℕ}
    (hagree : first.AgreesBelow size second) (hle : smaller ≤ size) :
    first.AgreesBelow smaller second :=
  ⟨hagree.time, hagree.slot, fun i hi => hagree.bytes i (hi.trans_le hle)⟩

theorem Block.AgreesBelow.header (hagree : first.AgreesBelow 10 second) :
    hasMarker first.bytes = hasMarker second.bytes ∧
      first.frequency = second.frequency := by
  have hbytes := hagree.bytes
  constructor
  · simp [hasMarker, hbytes]
  · simp [Block.frequency, headerFrequency, hbytes]

theorem Block.AgreesBelow.isStart (hagree : first.AgreesBelow 10 second) :
    first.isStart settings = second.isStart settings := by
  rw [Block.isStart, Block.isStart, hagree.header.1, hagree.header.2]

theorem Block.AgreesBelow.inBand (hagree : first.AgreesBelow 10 second) :
    first.inBand = second.inBand := by
  rw [Block.inBand, Block.inBand, hagree.header.1, hagree.header.2]

theorem Block.AgreesBelow.enterBlock (hagree : first.AgreesBelow 10 second) :
    state.enterBlock ops settings first =
      state.enterBlock ops settings second := by
  rw [State.enterBlock, State.enterBlock, hagree.isStart, hagree.time,
    hagree.slot]

theorem Block.AgreesBelow.exitsAt (hagree : first.AgreesBelow 10 second) :
    state.exitsAt ops settings first = state.exitsAt ops settings second := by
  rw [State.exitsAt, State.exitsAt, hagree.header.1, hagree.enterBlock]

theorem Block.AgreesBelow.sampleBytes
    (hagree : first.AgreesBelow bytesPerBlock second) {i : ℕ}
    (hi : i < settings.fftSize.size) :
    HackRF.Sweep.sampleBytes (first.sampleBuf settings) i =
      HackRF.Sweep.sampleBytes (second.sampleBuf settings) i := by
  have hmax := settings.fftSize.le_max
  unfold HackRF.Sweep.sampleBytes Block.sampleBuf
  rw [hagree.bytes _ (by unfold bytesPerBlock; omega),
    hagree.bytes _ (by unfold bytesPerBlock; omega)]

theorem transformBlock_eq (ops : FloatOps F) (settings : Settings F)
    (state : State F) (block : Block) :
    state.transformBlock ops settings block.frequency
        (block.sampleBuf settings) =
      { state with
        fftwIn := settings.fftInput ops state.fftwIn block
        fftwOut := ops.forward settings.fftSize.size
          (settings.fftInput ops state.fftwIn block)
        power := fun i =>
          if i < settings.fftSize.size then
            settings.level ops state.fftwIn block i
          else state.power i
        transformed := state.transformed ++
          [block.entry settings state.timeStamp] } := rfl

theorem Block.AgreesBelow.processBlock
    (hagree : first.AgreesBelow bytesPerBlock second) :
    state.processBlock ops settings first =
      state.processBlock ops settings second := by
  have hfrequency := (hagree.mono (by decide)).header.2
  have hinput : settings.fftInput ops state.fftwIn first =
      settings.fftInput ops state.fftwIn second := by
    funext i
    unfold Settings.fftInput Settings.sampleInput
    split_ifs with hi
    · rw [hagree.sampleBytes hi]
    · rfl
  have hlevel : settings.level ops state.fftwIn first =
      settings.level ops state.fftwIn second := by
    funext bin
    rw [Settings.level, Settings.level, hinput]
  have hentry : first.entry settings state.timeStamp =
      second.entry settings state.timeStamp := by
    unfold Block.entry Block.samples
    rw [hfrequency, List.map_congr_left fun i hi =>
      hagree.sampleBytes (List.mem_range.mp hi)]
  rw [State.processBlock, State.processBlock, transformBlock_eq,
    transformBlock_eq, hinput, hlevel, hentry, hfrequency]

theorem Block.AgreesBelow.blockStep
    (hagree : first.AgreesBelow bytesPerBlock second) :
    state.blockStep ops settings first =
      state.blockStep ops settings second := by
  have hheader : first.AgreesBelow 10 second := hagree.mono (by decide)
  rw [State.blockStep, State.blockStep, hheader.enterBlock, hheader.inBand,
    hagree.processBlock]

end Blocks

/-! ## Two runs of the block loop -/

namespace State

variable {ops : FloatOps F} {settings : Settings F} {first second : Transfer}
  {time : Timeval}

theorem rxLoop_one (transfer : Transfer) (time : Timeval) (j : ℕ)
    (state : State F) :
    state.rxLoop ops settings transfer.buffer time 1 j (j * bytesPerBlock) =
      state.blockStep ops settings (transfer.block time j) := by
  rw [rxLoop, rxBlock_eq]
  split_ifs <;> rfl

theorem rxLoop_result {n j : ℕ} (state : State F)
    (hagree : ∀ slot, j ≤ slot → slot < j + n →
      (first.block time slot).AgreesBelow bytesPerBlock
        (second.block time slot))
    (hlast : ∀ reached : State F,
      (reached.blockStep ops settings (first.block time (j + n))).result =
        (reached.blockStep ops settings
          (second.block time (j + n))).result) :
    (state.rxLoop ops settings first.buffer time (n + 1) j
        (j * bytesPerBlock)).result =
      (state.rxLoop ops settings second.buffer time (n + 1) j
        (j * bytesPerBlock)).result := by
  induction n generalizing j state with
  | zero =>
      rw [rxLoop_one, rxLoop_one]
      exact hlast state
  | succ n ih =>
      have hfirst := hagree j le_rfl (by omega)
      have hheader : (first.block time j).AgreesBelow 10
          (second.block time j) := hfirst.mono (by decide)
      rw [rxLoop, rxLoop, rxBlock_eq, rxBlock_eq, hheader.exitsAt,
        hfirst.blockStep]
      split_ifs with hexit
      · rfl
      · apply ih
        · exact fun slot hlow hhigh => hagree slot (by omega) (by omega)
        · rw [Nat.add_right_comm]
          exact hlast

theorem rxCallback_eq_rxLoop (hfd : settings.fd = true) (state : State F)
    (transfer : Transfer) (time : Timeval) :
    (state.rxCallback ops settings transfer time).2 =
      { state with
        byteCount := state.byteCount + transfer.validLength }.rxLoop ops
          settings transfer.buffer time blocksPerTransfer 0
          (0 * bytesPerBlock) := by
  unfold rxCallback
  rw [if_neg (by simp [hfd]), Nat.zero_mul]

end State

theorem Transfer.block_agreesBelow {first second : ℕ → UInt8}
    {validLength : UInt32}
    (hsame : ∀ i < validLength.toNat, first i = second i) (time : Timeval)
    (slot size : ℕ)
    (hsize : slot * bytesPerBlock + size ≤ validLength.toNat) :
    (Transfer.block ⟨first, validLength⟩ time slot).AgreesBelow size
      (Transfer.block ⟨second, validLength⟩ time slot) :=
  ⟨rfl, rfl, fun i hi => hsame _ (by omega)⟩

/-! ## Missing samples that are hidden -/

section Sufficient

variable {ops : FloatOps F} {settings : Settings F} {validLength : UInt32}
  {first second : Block}

theorem Settings.HidesMissing.fftInput
    (hhides : settings.HidesMissing ops validLength)
    (hbytes : ∀ i, 15 * bytesPerBlock + i < validLength.toNat →
      first.bytes i = second.bytes i) (rest : ℕ → F × F) :
    settings.fftInput ops rest first = settings.fftInput ops rest second := by
  funext i
  unfold Settings.fftInput
  split_ifs with hi
  · have hcomponent : ∀ k < 2,
        ops.windowed (first.sampleBuf settings (i * 2 + k)).toInt8
            (settings.window i) =
          ops.windowed (second.sampleBuf settings (i * 2 + k)).toInt8
            (settings.window i) := by
      intro k hk
      by_cases hmissing : validLength.toNat < settings.lastSampleEnd i
      · exact hhides i hi hmissing _ _
      · have hmax := settings.fftSize.le_max
        rw [Block.sampleBuf, Block.sampleBuf, hbytes]
        unfold Settings.lastSampleEnd at hmissing
        unfold transferBytes blocksPerTransfer bytesPerBlock at *
        omega
    exact Prod.ext (hcomponent 0 (by decide)) (hcomponent 1 (by decide))
  · rfl

theorem Settings.hidesMissing_of_complete (ops : FloatOps F)
    (settings : Settings F) (hcomplete : transferBytes ≤ validLength.toNat) :
    lastHeaderEnd ≤ validLength.toNat ∧
      settings.HidesMissing ops validLength := by
  have hmax := settings.fftSize.le_max
  unfold transferBytes blocksPerTransfer at hcomplete
  refine ⟨?_, fun i hi hmissing => absurd hmissing ?_⟩
  · unfold lastHeaderEnd
    unfold bytesPerBlock at *
    omega
  · unfold Settings.lastSampleEnd transferBytes blocksPerTransfer
    unfold bytesPerBlock at *
    omega

theorem emitBlock_result (state : State F) (transformed : List Transformed)
    (frequency : UInt64) :
    ({ state with transformed := transformed }.emitBlock ops settings
        frequency).result =
      (state.emitBlock ops settings frequency).result := by
  unfold State.emitBlock
  split_ifs <;> rfl

/-- The result of a block depends on its frequency and on the input of the
transform. -/
theorem processBlock_result (hfrequency : first.frequency = second.frequency)
    (state : State F)
    (hinput : settings.fftInput ops state.fftwIn first =
      settings.fftInput ops state.fftwIn second) :
    (state.processBlock ops settings first).result =
      (state.processBlock ops settings second).result := by
  have hlevel : settings.level ops state.fftwIn first =
      settings.level ops state.fftwIn second := by
    funext bin
    rw [Settings.level, Settings.level, hinput]
  rw [State.processBlock, State.processBlock, transformBlock_eq,
    transformBlock_eq, hinput, hlevel, hfrequency]
  exact (emitBlock_result _ (state.transformed ++
    [second.entry settings state.timeStamp]) second.frequency).symm

theorem Settings.HidesMissing.blockStep
    (hhides : settings.HidesMissing ops validLength)
    (hheader : lastHeaderEnd ≤ validLength.toNat)
    (htime : first.time = second.time) (hslot : first.slot = second.slot)
    (hbytes : ∀ i, 15 * bytesPerBlock + i < validLength.toNat →
      first.bytes i = second.bytes i) (state : State F) :
    (state.blockStep ops settings first).result =
      (state.blockStep ops settings second).result := by
  have hten : first.AgreesBelow 10 second :=
    ⟨htime, hslot, fun i hi => hbytes i (by
      unfold lastHeaderEnd at hheader
      omega)⟩
  rw [State.blockStep, State.blockStep, hten.enterBlock, hten.inBand]
  split_ifs
  · exact processBlock_result hten.header.2 _ (hhides.fftInput hbytes _)
  · rfl

theorem usesOnlyReceived_of_closed (ops : FloatOps F)
    (hclosed : settings.fd = false) :
    UsesOnlyReceived ops settings validLength := by
  intro state time first second _
  rw [State.rxCallback, State.rxCallback, if_pos hclosed, if_pos hclosed]

/-- All blocks but the last have been received, and of the last one the header
and what the window does not hide. -/
theorem Settings.HidesMissing.usesOnlyReceived
    (hhides : settings.HidesMissing ops validLength)
    (hheader : lastHeaderEnd ≤ validLength.toNat) :
    UsesOnlyReceived ops settings validLength := by
  intro state time first second hsame
  cases hfd : settings.fd with
  | false => exact usesOnlyReceived_of_closed ops hfd state time _ _ hsame
  | true =>
      rw [State.rxCallback_eq_rxLoop hfd, State.rxCallback_eq_rxLoop hfd]
      apply State.rxLoop_result
      · intro slot _ hslot
        apply Transfer.block_agreesBelow hsame time slot bytesPerBlock
        unfold lastHeaderEnd bytesPerBlock at *
        omega
      · intro reached
        refine hhides.blockStep hheader ?_ ?_ (fun i hi => ?_) reached
        · rfl
        · rfl
        · exact hsame _ hi

end Sufficient

/-! ## A header in front of any frequency -/

/-- The bytes of a header, of which only the first ten count. -/
def headerOf (frequency : UInt64) (i : ℕ) : UInt8 :=
  if i < 2 then 0x7F
  else (frequency >>> UInt64.ofNat (8 * (i - 2))).toUInt8

theorem getLsbD_toUInt8 (value : UInt64) (i : ℕ) :
    value.toUInt8.toUInt64.toBitVec.getLsbD i =
      (decide (i < 8) && value.toBitVec.getLsbD i) := by
  rw [UInt8.toBitVec_toUInt64, UInt64.toBitVec_toUInt8,
    BitVec.getLsbD_setWidth, BitVec.getLsbD_setWidth]
  by_cases hi : i < 8
  · simp only [hi, decide_true, Bool.true_and, Bool.and_eq_right_iff_imp,
      decide_eq_true_eq]
    omega
  · simp [hi]

theorem getLsbD_headerOf (frequency : UInt64) {i : ℕ} (hi : i < 64) {k : ℕ}
    (hk : k < 8) :
    ((headerOf frequency (k + 2)).toUInt64 <<<
        UInt64.ofNat (8 * k)).toBitVec.getLsbD i =
      (decide (i / 8 = k) && frequency.toBitVec.getLsbD i) := by
  have hshift : ((UInt64.ofNat (8 * k)).toBitVec % 64).toNat = 8 * k := by
    rw [BitVec.toNat_umod, UInt64.toNat_toBitVec, UInt64.toNat_ofNat']
    exact (congrArg (· % 64) (Nat.mod_eq_of_lt (by omega))).trans
      (Nat.mod_eq_of_lt (by omega))
  rw [headerOf, if_neg (by omega), Nat.add_sub_cancel,
    UInt64.toBitVec_shiftLeft, BitVec.shiftLeft_eq', hshift,
    BitVec.getLsbD_shiftLeft, getLsbD_toUInt8, UInt64.toBitVec_shiftRight,
    BitVec.ushiftRight_eq', hshift, BitVec.getLsbD_ushiftRight]
  by_cases hlow : i < 8 * k
  · have hcell : i / 8 ≠ k := by omega
    simp [hlow, hcell]
  · have hsum : 8 * k + (i - 8 * k) = i := by omega
    have hcell : i - 8 * k < 8 ↔ i / 8 = k := by omega
    simp [hi, hlow, hsum, hcell]

theorem headerFrequency_headerOf (frequency : UInt64) :
    headerFrequency (headerOf frequency) = frequency := by
  apply UInt64.eq_of_toBitVec_eq
  apply BitVec.eq_of_getLsbD_eq
  intro i hi
  have hbyte := fun k => getLsbD_headerOf frequency hi (k := k)
  have hlow : (headerOf frequency 2).toUInt64.toBitVec.getLsbD i =
      (decide (i / 8 = 0) && frequency.toBitVec.getLsbD i) := by
    simpa using hbyte 0 (by decide)
  have hcell : i / 8 < 8 := by omega
  simp only [headerFrequency, UInt64.toBitVec_or, BitVec.getLsbD_or, hlow]
  rw [show ((headerOf frequency 9).toUInt64 <<< 56).toBitVec.getLsbD i = _
      from hbyte 7 (by decide),
    show ((headerOf frequency 8).toUInt64 <<< 48).toBitVec.getLsbD i = _
      from hbyte 6 (by decide),
    show ((headerOf frequency 7).toUInt64 <<< 40).toBitVec.getLsbD i = _
      from hbyte 5 (by decide),
    show ((headerOf frequency 6).toUInt64 <<< 32).toBitVec.getLsbD i = _
      from hbyte 4 (by decide),
    show ((headerOf frequency 5).toUInt64 <<< 24).toBitVec.getLsbD i = _
      from hbyte 3 (by decide),
    show ((headerOf frequency 4).toUInt64 <<< 16).toBitVec.getLsbD i = _
      from hbyte 2 (by decide),
    show ((headerOf frequency 3).toUInt64 <<< 8).toBitVec.getLsbD i = _
      from hbyte 1 (by decide)]
  interval_cases i / 8 <;> simp

/-- Frequencies which differ by 2^56 differ in the last byte of the header
only. -/
theorem headerOf_add (frequency : UInt64) {i : ℕ} (hi : i < 9) :
    headerOf (frequency + UInt64.ofNat (2 ^ 56)) i =
      headerOf frequency i := by
  unfold headerOf
  split_ifs with hmarker
  · rfl
  · have hsize := frequency.toNat_lt
    rw [← UInt8.toNat_inj, UInt64.toNat_toUInt8, UInt64.toNat_toUInt8,
      UInt64.toNat_shiftRight, UInt64.toNat_shiftRight, UInt64.toNat_add,
      Nat.shiftRight_eq_div_pow, Nat.shiftRight_eq_div_pow]
    interval_cases i <;> simp <;> omega

/-! ## Transfers of which only the last block counts -/

def Transfer.lastBlock (bytes : ℕ → UInt8) (validLength : UInt32) :
    Transfer where
  buffer := fun i =>
    if i < 15 * bytesPerBlock then 0 else bytes (i - 15 * bytesPerBlock)
  validLength := validLength

theorem Transfer.lastBlock_block (bytes : ℕ → UInt8) (validLength : UInt32)
    (time : Timeval) :
    (Transfer.lastBlock bytes validLength).block time 15 =
      ⟨time, 15, bytes⟩ := by
  unfold Transfer.block Transfer.lastBlock
  congr
  funext i
  dsimp only
  rw [if_neg (by omega), Nat.add_sub_cancel_left]

theorem Transfer.lastBlock_unmarked (bytes : ℕ → UInt8)
    (validLength : UInt32) (time : Timeval) {slot : ℕ} (hslot : slot < 15) :
    hasMarker
      ((Transfer.lastBlock bytes validLength).block time slot).bytes =
        false := by
  have hzero : ((Transfer.lastBlock bytes validLength).block time
      slot).bytes 0 = 0 := by
    apply if_pos
    unfold bytesPerBlock
    omega
  simp [hasMarker, hzero]

namespace State

variable {ops : FloatOps F} {settings : Settings F}

theorem rxLoop_of_unmarked {transfer : Transfer} {time : Timeval} {n j : ℕ}
    (hunmarked : ∀ slot, j ≤ slot → slot < j + n →
      hasMarker (transfer.block time slot).bytes = false)
    (rounds : ℕ) (state : State F) :
    state.rxLoop ops settings transfer.buffer time (n + rounds) j
        (j * bytesPerBlock) =
      state.rxLoop ops settings transfer.buffer time rounds (j + n)
        ((j + n) * bytesPerBlock) := by
  induction n generalizing j with
  | zero => rw [Nat.zero_add, Nat.add_zero]
  | succ n ih =>
      have hmarker := hunmarked j le_rfl (by omega)
      have hexit : state.exitsAt ops settings (transfer.block time j) =
          false := by
        simp [exitsAt, hmarker]
      have hstep : state.blockStep ops settings (transfer.block time j) =
          state := by
        simp [blockStep, enterBlock, Block.isStart, Block.inBand, hmarker]
      rw [Nat.add_right_comm, rxLoop, rxBlock_eq, hexit, hstep]
      refine (ih fun slot hlow hhigh =>
        hunmarked slot (by omega) (by omega)).trans ?_
      rw [Nat.add_right_comm, Nat.add_assoc]

theorem rxCallback_lastBlock (ops : FloatOps F) (hfd : settings.fd = true)
    (bytes : ℕ → UInt8) (validLength : UInt32) (time : Timeval)
    (state : State F) :
    (state.rxCallback ops settings (.lastBlock bytes validLength) time).2 =
      { state with
        byteCount := state.byteCount + validLength }.blockStep ops settings
          ⟨time, 15, bytes⟩ := by
  have hblocks : blocksPerTransfer = 15 + 1 := rfl
  rw [rxCallback_eq_rxLoop hfd, hblocks, rxLoop_of_unmarked, rxLoop_one,
    Nat.zero_add, Transfer.lastBlock_block]
  · rfl
  · intro slot _ hslot
    exact Transfer.lastBlock_unmarked bytes validLength time (by omega)

end State

theorem blockStep_sweepCount (ops : FloatOps F) (settings : Settings F)
    (state : State F) (block : Block) :
    (state.blockStep ops settings block).result.sweepCount =
      if block.isStart settings && state.sweepStarted then
        state.sweepCount + 1
      else state.sweepCount := by
  have hprogress := state.blockStep_progress ops settings block
  have hcount : (state.progress.step settings block).sweepCount =
      (state.progress.enter settings block).sweepCount := by
    unfold Progress.step
    dsimp only
    split_ifs <;> rfl
  change (state.blockStep ops settings block).progress.sweepCount = _
  rw [hprogress, hcount]
  cases hstart : block.isStart settings with
  | false => simp [Progress.enter, hstart, State.progress]
  | true =>
      simp only [Progress.enter, hstart, Bool.true_and, ↓reduceIte]
      rfl

theorem isStart_headerOf (settings : Settings F) (time : Timeval) (slot : ℕ)
    (frequency : UInt64) :
    (Block.mk time slot (headerOf frequency)).isStart settings =
      (frequency == settings.startFrequency) := by
  have hmarker : hasMarker (headerOf frequency) = true := by
    simp [hasMarker, headerOf]
  rw [Block.isStart, Block.frequency, headerFrequency_headerOf, hmarker,
    Bool.true_and]

section Necessary

variable {ops : FloatOps F} {settings : Settings F} {validLength : UInt32}

theorem UsesOnlyReceived.blockStep
    (huses : UsesOnlyReceived ops settings validLength)
    (hfd : settings.fd = true) (first second : ℕ → UInt8)
    (hsame : ∀ i, 15 * bytesPerBlock + i < validLength.toNat →
      first i = second i) (state : State F) (time : Timeval) :
    ({ state with byteCount := state.byteCount + validLength }.blockStep ops
        settings ⟨time, 15, first⟩).result =
      ({ state with byteCount := state.byteCount + validLength }.blockStep ops
        settings ⟨time, 15, second⟩).result := by
  have hresult := huses state time
    (Transfer.lastBlock first validLength).buffer
    (Transfer.lastBlock second validLength).buffer fun i hi => by
      unfold Transfer.lastBlock
      dsimp only
      split_ifs with hlow
      · rfl
      · exact hsame _ (by omega)
  rw [← State.rxCallback_lastBlock ops hfd first validLength time state,
    ← State.rxCallback_lastBlock ops hfd second validLength time state]
  exact hresult

/-- A start-frequency block whose last header byte may be stale is counted or
not, whatever the arithmetic is. -/
theorem UsesOnlyReceived.lastHeaderEnd_le
    (huses : UsesOnlyReceived ops settings validLength)
    (hfd : settings.fd = true) : lastHeaderEnd ≤ validLength.toNat := by
  by_contra hshort
  have hresult := huses.blockStep hfd (headerOf settings.startFrequency)
    (headerOf (settings.startFrequency + UInt64.ofNat (2 ^ 56)))
    (fun i hi => (headerOf_add _ (by
      unfold lastHeaderEnd at hshort
      omega)).symm)
    { State.initial (settings.window 0) with sweepStarted := true } ⟨0, 0⟩
  have hcount := congrArg State.Result.sweepCount hresult
  rw [blockStep_sweepCount, blockStep_sweepCount, isStart_headerOf,
    isStart_headerOf] at hcount
  simp [State.initial] at hcount

end Necessary

/-! ## What is written for a block -/

theorem foldl_update_of_forall {α : Type*} {writes : List (ℕ × α)} {value : α}
    (hvalue : ∀ write ∈ writes, write.2 = value) (array : ℕ → α) {i : ℕ}
    (hi : i ∈ writes.map Prod.fst) :
    writes.foldl (fun array write => Function.update array write.1 write.2)
      array i = value := by
  induction writes using List.reverseRecOn with
  | nil => simp at hi
  | append_singleton rest write ih =>
      rw [List.foldl_concat]
      by_cases hlast : i = write.1
      · rw [hlast, Function.update_self]
        exact hvalue write (by simp)
      · rw [Function.update_of_ne hlast]
        refine ih (fun earlier hearlier => hvalue earlier (by simp [hearlier]))
          ?_
        rw [List.map_append, List.mem_append] at hi
        exact hi.resolve_right (by simpa using hlast)

def textOutput (settings : Settings F) (timeStamp : Timeval)
    (frequency : UInt64) (low high : List F) : List (Chunk F) :=
  (.head timeStamp frequency
      (frequency + UInt64.ofNat (defaultSampleRateHz / 4))
      settings.fftSize.binWidth settings.fftSize.size ::
    low.map .level ++ [.newline]) ++
  (.head timeStamp (frequency + UInt64.ofNat (defaultSampleRateHz / 2))
      (frequency + UInt64.ofNat (defaultSampleRateHz * 3 / 4))
      settings.fftSize.binWidth settings.fftSize.size ::
    high.map .level ++ [.newline]) ++
  low.map .level

theorem textOutput_inj {settings : Settings F} {timeStamp : Timeval}
    {frequency : UInt64} {low high low' high' : List F} (hlow : low.length = low'.length)
    (hhigh : high.length = high'.length)
    (hsame : textOutput settings timeStamp frequency low high =
      textOutput settings timeStamp frequency low' high') :
    low = low' := by
  have hlevel : Function.Injective (Chunk.level : F → Chunk F) :=
    fun _ _ h => Chunk.level.inj h
  unfold textOutput at hsame
  obtain ⟨-, hrest⟩ := List.append_inj hsame (by simp [hlow, hhigh])
  exact List.map_injective_iff.mpr hlevel hrest

/-! ## Transforms that show one sample -/

/-- A transform may tell one input from all others: every bin is `hit` if the
input at `index` is `value`, and `miss` otherwise. -/
structure Probe (F : Type*) where
  index : ℕ
  value : F × F
  hit : F × F
  miss : F × F

section Shown

variable [DecidableEq F] {probe : Probe F} {ops : FloatOps F}
  {settings : Settings F} {state : State F} {first second : Block}

def Probe.withOps (probe : Probe F) (ops : FloatOps F) : FloatOps F :=
  ops.withLibraries (fun level => level)
    (fun _ input _ =>
      if input probe.index = probe.value then probe.hit else probe.miss)
    (fun _ input => input)

/-- What the bins of a block are. -/
def Probe.shown (probe : Probe F) (ops : FloatOps F) (settings : Settings F)
    (block : Block) : F × F :=
  if settings.sampleInput ops block probe.index = probe.value then probe.hit
  else probe.miss

/-- What the levels of a block are. -/
def Probe.level (probe : Probe F) (ops : FloatOps F) (settings : Settings F)
    (block : Block) : F :=
  ops.magsq (probe.shown ops settings block)
    (ops.reciprocal settings.fftSize.size)

theorem forward_withOps (hindex : probe.index < settings.fftSize.size)
    (rest : ℕ → F × F) (block : Block) (bin : ℕ) :
    (probe.withOps ops).forward settings.fftSize.size
        (settings.fftInput (probe.withOps ops) rest block) bin =
      probe.shown ops settings block := by
  have hinput : settings.fftInput (probe.withOps ops) rest block probe.index =
      settings.sampleInput ops block probe.index := if_pos hindex
  change (if _ then _ else _) = _
  rw [hinput]
  rfl

theorem powers_withOps (hindex : probe.index < settings.fftSize.size)
    (block : Block) {offset : ℕ}
    (hoffset : offset ≤ settings.fftSize.size * 5 / 8) :
    (state.transformBlock (probe.withOps ops) settings block.frequency
        (block.sampleBuf settings)).powers settings offset =
      List.replicate settings.fftSize.quarter
        (probe.level ops settings block) := by
  have hsize := settings.fftSize.size_eq
  rw [transformBlock_eq, State.powers, List.eq_replicate_iff]
  refine ⟨by simp, fun level hlevel => ?_⟩
  obtain ⟨i, hi, rfl⟩ := List.mem_map.mp hlevel
  rw [List.mem_range] at hi
  have hbin : i + 1 + offset < settings.fftSize.size := by omega
  dsimp only
  rw [if_pos hbin, Settings.level, forward_withOps hindex]
  rfl

theorem level_of_replicate
    (hsame : List.replicate settings.fftSize.quarter
        (probe.level ops settings first) =
      List.replicate settings.fftSize.quarter
        (probe.level ops settings second)) :
    probe.level ops settings first = probe.level ops settings second := by
  have hodd := settings.fftSize.quarter_odd
  exact (List.replicate_right_inj (by omega)).mp hsame

/-- In binary mode the records show the sample. -/
theorem level_of_emitBinary (hindex : probe.index < settings.fftSize.size)
    (hsame : ((state.transformBlock (probe.withOps ops) settings
          first.frequency (first.sampleBuf settings)).emitBinary settings
            first.frequency).result =
      ((state.transformBlock (probe.withOps ops) settings
          second.frequency (second.sampleBuf settings)).emitBinary settings
            second.frequency).result) :
    probe.level ops settings first = probe.level ops settings second := by
  have hpower : ∀ (frequency : UInt64) (state : State F),
      (state.emitBinary settings frequency).result.records.getLast?.map
          SweepVals.power =
        some (state.powers settings (settings.fftSize.size / 8)) := by
    intro frequency state
    simp [State.emitBinary, State.result]
  have hlast := congrArg (fun result => result.records.getLast?.map
    SweepVals.power) hsame
  rw [hpower, hpower, powers_withOps hindex first (by omega),
    powers_withOps hindex second (by omega)] at hlast
  exact level_of_replicate (Option.some.inj hlast)

/-- In IFFT mode the input of the next inverse transform shows the sample. -/
theorem level_of_emitIfft (hindex : probe.index < settings.fftSize.size)
    (hfrequency : first.frequency = second.frequency)
    (hsame : ((state.transformBlock (probe.withOps ops) settings
          first.frequency (first.sampleBuf settings)).emitIfft
            (probe.withOps ops) settings first.frequency).result =
      ((state.transformBlock (probe.withOps ops) settings
          second.frequency (second.sampleBuf settings)).emitIfft
            (probe.withOps ops) settings second.frequency).result) :
    probe.level ops settings first = probe.level ops settings second := by
  have hodd := settings.fftSize.quarter_odd
  have hassigned : ∀ block : Block,
      ((state.transformBlock (probe.withOps ops) settings
        block.frequency (block.sampleBuf settings)).emitIfft
          (probe.withOps ops) settings block.frequency).result.ifftwIn
        (State.ifftIndex (probe.withOps ops) settings block.frequency) =
          probe.shown ops settings block := by
    intro block
    rw [transformBlock_eq, State.emitIfft]
    apply foldl_update_of_forall
    · intro write hwrite
      simp only [State.ifftWrites, List.mem_append, List.mem_map] at hwrite
      obtain ⟨i, -, rfl⟩ | ⟨i, -, rfl⟩ := hwrite
      · exact forward_withOps hindex state.fftwIn block
          (i + 1 + settings.fftSize.size * 5 / 8)
      · exact forward_withOps hindex state.fftwIn block
          (i + 1 + settings.fftSize.size / 8)
    · simp only [State.ifftWrites, List.map_append, List.map_map,
        List.mem_append, List.mem_map, List.mem_range]
      exact .inl ⟨0, by omega, rfl⟩
  have hshown : probe.shown ops settings first =
      probe.shown ops settings second := by
    rw [← hassigned first, ← hassigned second, hsame, hfrequency]
  rw [Probe.level, Probe.level, hshown]

/-- In text mode the printed levels show the sample. -/
theorem level_of_emitText (hindex : probe.index < settings.fftSize.size)
    (hfrequency : first.frequency = second.frequency)
    (hsame : ((state.transformBlock (probe.withOps ops) settings
          first.frequency (first.sampleBuf settings)).emitText settings
            first.frequency).result =
      ((state.transformBlock (probe.withOps ops) settings
          second.frequency (second.sampleBuf settings)).emitText settings
            second.frequency).result) :
    probe.level ops settings first = probe.level ops settings second := by
  have houtput : ∀ block : Block,
      ((state.transformBlock (probe.withOps ops) settings
        block.frequency (block.sampleBuf settings)).emitText settings
          block.frequency).result.output =
      state.output ++ textOutput settings state.timeStamp block.frequency
        (List.replicate settings.fftSize.quarter
          (probe.level ops settings block))
        (List.replicate settings.fftSize.quarter
          (probe.level ops settings block)) := by
    intro block
    rw [State.emitText, State.textRow, State.textRow,
      powers_withOps hindex block le_rfl,
      powers_withOps hindex block (by omega)]
    simp [textOutput, State.transformBlock, State.result]
  have hprinted := congrArg State.Result.output hsame
  rw [houtput, houtput, hfrequency] at hprinted
  exact level_of_replicate
    (textOutput_inj (by simp) (by simp) (List.append_cancel_left hprinted))

/-- Whatever the mode, the result shows the sample of a processed block. -/
theorem level_of_processBlock (hindex : probe.index < settings.fftSize.size)
    (hfrequency : first.frequency = second.frequency)
    (hsame : (state.processBlock (probe.withOps ops) settings first).result =
      (state.processBlock (probe.withOps ops) settings second).result) :
    probe.level ops settings first = probe.level ops settings second := by
  unfold State.processBlock State.emitBlock at hsame
  cases hbinary : settings.binaryOutput with
  | true =>
      rw [if_pos hbinary, if_pos hbinary] at hsame
      exact level_of_emitBinary hindex hsame
  | false =>
      have hnotBinary : ¬ settings.binaryOutput = true := by simp [hbinary]
      rw [if_neg hnotBinary, if_neg hnotBinary] at hsame
      cases hifft : settings.ifftOutput with
      | true =>
          rw [if_pos hifft, if_pos hifft] at hsame
          exact level_of_emitIfft hindex hfrequency hsame
      | false =>
          have hnotIfft : ¬ settings.ifftOutput = true := by simp [hifft]
          rw [if_neg hnotIfft, if_neg hnotIfft] at hsame
          exact level_of_emitText hindex hfrequency hsame

end Shown

section Necessary

variable {ops : FloatOps F} {settings : Settings F} {validLength : UInt32}

/-- A sweep is under way once the block is entered, and has just begun if the
block starts one. -/
theorem exists_underWay (ops : FloatOps F) (settings : Settings F)
    (block : Block) :
    ∃ state : State F, ∀ byteCount : UInt32,
      let entered := { state with byteCount := byteCount }.enterBlock ops
        settings block
      entered.doExit = false ∧ entered.sweepStarted = true := by
  refine ⟨{ State.initial (settings.window 0) with
    sweepStarted := !block.isStart settings }, fun byteCount => ?_⟩
  unfold State.enterBlock State.startSweep
  cases hstart : block.isStart settings with
  | false => simp [State.initial]
  | true => simp [State.initial]

/-- If only received bytes count, whatever bins are made of the input, the
bytes of a block in band which have not been received do not show in them. -/
theorem level_of_usesOnlyReceived [DecidableEq F] {probe : Probe F}
    (huses : UsesOnlyReceived (probe.withOps ops) settings validLength)
    (hfd : settings.fd = true) (hindex : probe.index < settings.fftSize.size)
    {first second : ℕ → UInt8}
    (hsame : ∀ i, 15 * bytesPerBlock + i < validLength.toNat →
      first i = second i)
    (hband : (Block.mk ⟨0, 0⟩ 15 first).inBand = true) :
    probe.level ops settings ⟨⟨0, 0⟩, 15, first⟩ =
      probe.level ops settings ⟨⟨0, 0⟩, 15, second⟩ := by
  have hheader := huses.lastHeaderEnd_le hfd
  have hten : (Block.mk ⟨0, 0⟩ 15 first).AgreesBelow 10
      ⟨⟨0, 0⟩, 15, second⟩ :=
    ⟨rfl, rfl, fun i hi => hsame i (by
      unfold lastHeaderEnd at hheader
      omega)⟩
  obtain ⟨state, hunderWay⟩ :=
    exists_underWay (probe.withOps ops) settings ⟨⟨0, 0⟩, 15, first⟩
  have hresult := huses.blockStep hfd first second hsame state ⟨0, 0⟩
  obtain ⟨hexit, hstarted⟩ := hunderWay (state.byteCount + validLength)
  rw [State.blockStep, State.blockStep, ← hten.enterBlock, ← hten.inBand,
    if_pos ⟨hexit, hstarted, hband⟩, if_pos ⟨hexit, hstarted, hband⟩]
    at hresult
  exact level_of_processBlock hindex hten.header.2 hresult

/-- The bytes of a block in band with the second byte of sample `i` chosen. -/
def bytesWith (settings : Settings F) (i : ℕ) (value : Int8) : ℕ → UInt8 :=
  Function.update (headerOf 0)
    (bytesPerBlock - settings.fftSize.size * 2 + (i * 2 + 1)) value.toUInt8

theorem bytesWith_of_ne {i k : ℕ} (value : Int8)
    (hk : k ≠ bytesPerBlock - settings.fftSize.size * 2 + (i * 2 + 1)) :
    bytesWith settings i value k = headerOf 0 k :=
  Function.update_of_ne hk _ _

theorem inBand_bytesWith {i : ℕ} (value : Int8)
    (hheader : 10 ≤ bytesPerBlock - settings.fftSize.size * 2 + (i * 2 + 1)) :
    (Block.mk ⟨0, 0⟩ 15 (bytesWith settings i value)).inBand = true := by
  have hten : (Block.mk ⟨0, 0⟩ 15 (bytesWith settings i value)).AgreesBelow 10
      ⟨⟨0, 0⟩, 15, headerOf 0⟩ :=
    ⟨rfl, rfl, fun k hk => bytesWith_of_ne value (by omega)⟩
  rw [hten.inBand, Block.inBand, Block.frequency, headerFrequency_headerOf]
  rfl

theorem sampleInput_bytesWith (ops : FloatOps F) (i : ℕ) (value : Int8) :
    (settings.sampleInput ops
        ⟨⟨0, 0⟩, 15, bytesWith settings i value⟩ i).2 =
      ops.windowed value (settings.window i) := by
  have hbyte : bytesWith settings i value
      (bytesPerBlock - settings.fftSize.size * 2 + (i * 2 + 1)) =
        value.toUInt8 :=
    Function.update_self _ _ _
  have hread : (settings.sampleInput ops
      ⟨⟨0, 0⟩, 15, bytesWith settings i value⟩ i).2 =
        ops.windowed (bytesWith settings i value
          (bytesPerBlock - settings.fftSize.size * 2 + (i * 2 + 1))).toInt8
          (settings.window i) := rfl
  rw [hread, hbyte, Int8.toInt8_toUInt8]

/-- Two values of the second byte of a sample, if it has not been received,
have to become the same. -/
theorem hidesMissing_of_forall (hfd : settings.fd = true)
    (htells : ops.TellsMagnitudes settings.fftSize.size)
    (huses : ∀ decibels forward backward, UsesOnlyReceived
      (ops.withLibraries decibels forward backward) settings validLength) :
    settings.HidesMissing ops validLength := by
  classical
  intro i hi hmissing sample other
  by_contra hne
  have hheader :=
    (huses ops.decibels ops.forward ops.backward).lastHeaderEnd_le hfd
  -- the byte lies behind what was received and so behind the header
  have hbehind : validLength.toNat ≤ 15 * bytesPerBlock +
      (bytesPerBlock - settings.fftSize.size * 2 + (i * 2 + 1)) := by
    have hmax := settings.fftSize.le_max
    unfold Settings.lastSampleEnd transferBytes blocksPerTransfer at hmissing
    unfold bytesPerBlock at *
    omega
  have hten : 10 ≤ bytesPerBlock - settings.fftSize.size * 2 + (i * 2 + 1) := by
    unfold lastHeaderEnd at hheader
    omega
  obtain ⟨hit, miss, hmagnitude⟩ := htells
  let probe : Probe F := {
    index := i
    value := settings.sampleInput ops
      ⟨⟨0, 0⟩, 15, bytesWith settings i sample⟩ i
    hit := hit
    miss := miss }
  have hlevel : probe.level ops settings
        ⟨⟨0, 0⟩, 15, bytesWith settings i sample⟩ =
      probe.level ops settings ⟨⟨0, 0⟩, 15, bytesWith settings i other⟩ := by
    refine level_of_usesOnlyReceived (huses _ _ _) hfd hi (fun k hk => ?_)
      (inBand_bytesWith sample hten)
    rw [bytesWith_of_ne sample (by omega), bytesWith_of_ne other (by omega)]
  have hhit : probe.shown ops settings
      ⟨⟨0, 0⟩, 15, bytesWith settings i sample⟩ = hit := if_pos rfl
  have hmiss : probe.shown ops settings
      ⟨⟨0, 0⟩, 15, bytesWith settings i other⟩ = miss := by
    refine if_neg fun hsame => hne ?_
    rw [← sampleInput_bytesWith ops i sample, ← sampleInput_bytesWith ops i other]
    exact (congrArg Prod.snd hsame).symm
  rw [Probe.level, Probe.level, hhit, hmiss] at hlevel
  exact hmagnitude hlevel

end Necessary

/-- Over whatever the C library and FFTW compute, only the received bytes count
exactly if the stream is closed, or the header of the last block has been
received and the window hides the samples of that block which have not.  Without
that header nothing they compute helps. -/
theorem usesOnlyReceived_iff (ops : FloatOps F) (settings : Settings F)
    (validLength : UInt32)
    (htells : ops.TellsMagnitudes settings.fftSize.size) :
    ((∀ decibels forward backward, UsesOnlyReceived
        (ops.withLibraries decibels forward backward) settings validLength) ↔
      settings.fd = false ∨
        lastHeaderEnd ≤ validLength.toNat ∧
          settings.HidesMissing ops validLength) ∧
    (transferBytes ≤ validLength.toNat →
      lastHeaderEnd ≤ validLength.toNat ∧
        settings.HidesMissing ops validLength) ∧
    ∀ other : FloatOps F, UsesOnlyReceived other settings validLength →
      settings.fd = false ∨ lastHeaderEnd ≤ validLength.toNat := by
  have hheader : ∀ other : FloatOps F,
      UsesOnlyReceived other settings validLength →
        settings.fd = false ∨ lastHeaderEnd ≤ validLength.toNat := by
    intro other huses
    cases hfd : settings.fd with
    | false => exact .inl rfl
    | true => exact .inr (huses.lastHeaderEnd_le hfd)
  refine ⟨⟨fun huses => ?_, ?_⟩, settings.hidesMissing_of_complete ops, hheader⟩
  · cases hfd : settings.fd with
    | false => exact .inl rfl
    | true =>
        have hlength := (huses ops.decibels ops.forward
          ops.backward).lastHeaderEnd_le hfd
        exact .inr ⟨hlength, hidesMissing_of_forall hfd htells huses⟩
  · rintro (hclosed | ⟨hlength, hhides⟩) decibels forward backward
    · exact usesOnlyReceived_of_closed _ hclosed
    · have hsame : settings.HidesMissing
          (ops.withLibraries decibels forward backward) validLength := hhides
      exact hsame.usesOnlyReceived hlength

/-- Text mode with one step from 0 MHz and 28 bins. -/
def oneStepSettings (window : ℕ → F) : Settings F where
  fd := true
  numSamples := 8192
  numSweeps := 0
  frequencies := fun i => if i = 1 then 20 else 0
  stepCount := 1
  fftSize := ⟨28, by decide, by decide, by decide⟩
  binaryOutput := false
  ifftOutput := false
  oneShot := false
  finiteMode := false
  window := window

/-- Arithmetic without rounding. -/
def FloatOps.rational : FloatOps ℚ where
  ofInt := fun n => n
  add := fun x y => x + y
  mul := fun x y => x * y
  div := fun x y => x / y
  decibels := fun x => x
  forward := fun _ input => input
  backward := fun _ input => input
  toUint32 := .wrapping

/-- A window which ends with 0 hides the last sample, and not the one before
it. -/
theorem usesOnlyReceived_iff_lastSample :
    let settings := oneStepSettings fun i => if i = 27 then (0 : ℚ) else 1
    let uses := fun validLength : UInt32 => ∀ decibels forward backward,
      UsesOnlyReceived (FloatOps.rational.withLibraries decibels forward backward)
        settings validLength
    uses 262142 ∧ ¬ uses 262141 := by
  intro settings uses
  have htells : FloatOps.rational.TellsMagnitudes settings.fftSize.size := by
    refine ⟨(1, 0), (0, 0), ?_⟩
    norm_num [FloatOps.magsq, FloatOps.rational, FloatOps.reciprocal, settings,
      oneStepSettings]
  constructor
  · apply (usesOnlyReceived_iff FloatOps.rational settings 262142 htells).1.mpr
    refine .inr ⟨by decide, fun i hi hmissing sample other => ?_⟩
    have hlast : i = 27 := by
      have hsize : i < 28 := hi
      change 262142 < 262144 - 28 * 2 + (i * 2 + 2) at hmissing
      omega
    subst hlast
    simp [FloatOps.windowed, FloatOps.rational, settings, oneStepSettings]
  · intro huses
    rcases (usesOnlyReceived_iff FloatOps.rational settings 262141 htells).1.mp
      huses with hclosed | ⟨-, hhides⟩
    · exact absurd hclosed (by decide)
    · have hsame := hhides 26 (by decide) (by decide) 0 1
      simp [FloatOps.windowed, FloatOps.rational, settings, oneStepSettings]
        at hsame

/-- A transfer without a valid byte starts a sweep if a start-frequency block
is left over in its buffer. -/
theorem usesOnlyReceived_fails_empty :
    let started : (ℕ → UInt8) → Bool := fun buffer =>
      ((State.initial ()).rxCallback (.forgetful .wrapping)
        (oneStepSettings fun _ => ()) ⟨buffer, 0⟩ ⟨0, 0⟩).2.sweepStarted
    started (fun _ => 0) = false ∧ started (headerOf 0) = true ∧
      ¬ UsesOnlyReceived (.forgetful .wrapping)
        (oneStepSettings fun _ => ()) 0 := by
  intro started
  have hfresh : started (fun _ => 0) = false := by decide
  have hstale : started (headerOf 0) = true := by decide
  refine ⟨hfresh, hstale, fun huses => ?_⟩
  have hresult := huses (State.initial ()) ⟨0, 0⟩ (fun _ => 0) (headerOf 0)
    (fun i hi => absurd hi (Nat.not_lt_zero i))
  have hstarted : started (fun _ => 0) = started (headerOf 0) :=
    congrArg State.Result.sweepStarted hresult
  rw [hfresh, hstale] at hstarted
  exact absurd hstarted (by decide)

end HackRF.Sweep
