import HackRF.RxCallback

/-!
# `rx_callback` as a fold over the block stream

A run of `rx_callback` sees a stream of blocks, sixteen to a transfer.  On
each of its control paths the pointer into the buffer lands on the next block
boundary, so that an iteration of the block loop is a step on one block.

`Progress` is what the callback has to do with a stream, apart from its
output: which blocks it transforms, how it counts sweeps and which timestamp a
block carries.  The callback refines it, and without a bound on the number of
sweeps it is a fold over the stream.
-/

namespace HackRF.Sweep

variable {F : Type*}

/-! ## Frequencies -/

theorem toNat_ofNat_mhz {mhz : ℕ} (hmhz : mhz < 2 ^ 32) :
    (UInt64.ofNat (mhz * freqOneMhz)).toNat = mhz * freqOneMhz := by
  rw [UInt64.toNat_ofNat']
  unfold freqOneMhz
  omega

theorem ofNat_mhz_le_maxFrequency_iff {mhz : ℕ} (hmhz : mhz < 2 ^ 32) :
    UInt64.ofNat (mhz * freqOneMhz) ≤ maxFrequency ↔ mhz ≤ freqMaxMhz := by
  rw [UInt64.le_iff_toNat_le, toNat_ofNat_mhz hmhz]
  change _ ≤ 7250000000 ↔ _ ≤ 7250
  unfold freqOneMhz
  omega

theorem Settings.startFrequency_toNat (settings : Settings F) :
    settings.startFrequency.toNat =
      (settings.frequencies 0).toNat * freqOneMhz := by
  have hlo := (settings.frequencies 0).toNat_lt
  rw [Settings.startFrequency, UInt64.toNat_mul, UInt64.toNat_ofNat',
    UInt16.toNat_toUInt64]
  unfold freqOneMhz
  omega

/-! ## Blocks -/

/-- A block as the loop meets it: its bytes, its place in the transfer, and
the time of the transfer. -/
structure Block where
  time : Timeval
  slot : ℕ
  bytes : ℕ → UInt8

namespace Block

variable (settings : Settings F) (block : Block)

def frequency : UInt64 := headerFrequency block.bytes

def isStart : Bool :=
  hasMarker block.bytes && block.frequency == settings.startFrequency

def inBand : Bool :=
  hasMarker block.bytes &&
    decide (block.frequency ≤ maxFrequency)

theorem frequency_le_of_inBand {block : Block} (hband : block.inBand = true) :
    block.frequency ≤ maxFrequency := by
  simp only [inBand, Bool.and_eq_true, decide_eq_true_eq] at hband
  exact hband.2

def timeStamp : Timeval := settings.blockTimeStamp block.time block.slot

/-- The bytes from the sample position of the block on. -/
def sampleBuf (i : ℕ) : UInt8 :=
  block.bytes (bytesPerBlock - settings.fftSize.size * 2 + i)

/-- The samples of the block: its last `2 * fftSize` bytes. -/
def samples : List (UInt8 × UInt8) :=
  (List.range settings.fftSize.size).map
    (sampleBytes (block.sampleBuf settings))

end Block

/-- The block at position `j` of a transfer. -/
def Transfer.block (transfer : Transfer) (time : Timeval) (j : ℕ) : Block where
  time := time
  slot := j
  bytes := fun i => transfer.buffer (j * bytesPerBlock + i)

def Transfer.blocksFrom (transfer : Transfer) (time : Timeval) (j n : ℕ) :
    List Block :=
  (List.range' j n).map (transfer.block time)

def stream (calls : List (Transfer × Timeval)) : List Block :=
  calls.flatMap fun call => call.1.blocksFrom call.2 0 blocksPerTransfer

namespace State

variable (ops : FloatOps F) (settings : Settings F)

def enterBlock (state : State F) (block : Block) : State F :=
  if block.isStart settings then
    state.startSweep ops settings block.time block.slot
  else state

def processBlock (state : State F) (block : Block) : State F :=
  (state.transformBlock ops settings block.frequency
    (block.sampleBuf settings)).emitBlock ops settings block.frequency

/-- One iteration of the block loop as a step on its block. -/
def blockStep (state : State F) (block : Block) : State F :=
  let entered := state.enterBlock ops settings block
  if entered.doExit = false ∧ entered.sweepStarted = true ∧
      block.inBand = true then
    entered.processBlock ops settings block
  else entered

def exitsAt (state : State F) (block : Block) : Bool :=
  hasMarker block.bytes && (state.enterBlock ops settings block).doExit

/-! ## The block loop -/

theorem sampleBuf_block (transfer : Transfer) (time : Timeval) (j : ℕ) :
    (fun i => transfer.buffer (j * bytesPerBlock +
        (bytesPerBlock - settings.fftSize.size * 2) + i)) =
      (transfer.block time j).sampleBuf settings := by
  funext i
  rw [Nat.add_assoc]
  rfl

/-- Skipping the header and then the samples skips the block. -/
theorem pointer_after_samples (buf : ℕ) :
    buf + (bytesPerBlock - settings.fftSize.size * 2) +
        settings.fftSize.size * 2 =
      buf + bytesPerBlock := by
  have hmax := settings.fftSize.le_max
  unfold bytesPerBlock
  omega

/-- On every path the pointer ends on the next block boundary. -/
theorem rxBlock_eq (transfer : Transfer) (time : Timeval) (j : ℕ)
    (state : State F) :
    state.rxBlock ops settings transfer.buffer time j (j * bytesPerBlock) =
      (if state.exitsAt ops settings (transfer.block time j) then .exit
        else .next ((j + 1) * bytesPerBlock),
        state.blockStep ops settings (transfer.block time j)) := by
  have hbytes : (fun i => transfer.buffer (j * bytesPerBlock + i)) =
      (transfer.block time j).bytes := rfl
  have hfrequency : headerFrequency (transfer.block time j).bytes =
      (transfer.block time j).frequency := rfl
  unfold rxBlock blockStep exitsAt
  simp only [hbytes, hfrequency, pointer_after_samples, Nat.add_mul,
    Nat.one_mul]
  cases hmarker : hasMarker (transfer.block time j).bytes with
  | false => simp [enterBlock, Block.isStart, Block.inBand, hmarker]
  | true =>
      have henter : (if (transfer.block time j).frequency =
            settings.startFrequency
          then state.startSweep ops settings time j else state) =
          state.enterBlock ops settings (transfer.block time j) := by
        unfold enterBlock Block.isStart
        rw [hmarker]
        simp only [Bool.true_and, beq_iff_eq]
        rfl
      have hband : (transfer.block time j).inBand = true ↔
          ¬ maxFrequency < (transfer.block time j).frequency := by
        simp [Block.inBand, hmarker]
      rw [henter, sampleBuf_block settings transfer time j]
      simp only [hband]
      generalize state.enterBlock ops settings (transfer.block time j) = entered
      cases entered.doExit with
      | true => simp
      | false =>
          cases entered.sweepStarted with
          | false => simp
          | true =>
              by_cases hhigh : maxFrequency < (transfer.block time j).frequency
              · simp [hhigh]
              · simp [hhigh, processBlock]

theorem rxLoop_invariant (Inv : State F → Prop)
    (hstep : ∀ state block, Inv state → Inv (state.blockStep ops settings block))
    (transfer : Transfer) (time : Timeval) (n j : ℕ) (state : State F)
    (hinv : Inv state) :
    Inv (state.rxLoop ops settings transfer.buffer time n j
      (j * bytesPerBlock)) := by
  induction n generalizing j state with
  | zero => exact hinv
  | succ n ih =>
      have hnext := hstep state (transfer.block time j) hinv
      rw [rxLoop, rxBlock_eq]
      cases state.exitsAt ops settings (transfer.block time j) with
      | true => exact hnext
      | false => exact ih (j + 1) _ hnext

end State

/-! ## Progress -/

/-- The part of the state which the control flow of the callback depends on,
and the blocks transformed so far. -/
structure Progress where
  sweepCount : UInt64
  doExit : Bool
  sweepStarted : Bool
  timeStamp : Timeval
  transformed : List Transformed
  deriving DecidableEq

/-- The sweep which makes the count `count` is the last one. -/
def Settings.endsAt (settings : Settings F) (count : UInt64) : Bool :=
  settings.oneShot ||
    settings.finiteMode && count == settings.numSweeps.toUInt64

/-- The block as it is transformed under a timestamp. -/
def Block.entry (settings : Settings F) (timeStamp : Timeval) (block : Block) :
    Transformed where
  frequency := block.frequency
  timeStamp := timeStamp
  samples := block.samples settings

namespace Progress

variable (settings : Settings F)

def enter (progress : Progress) (block : Block) : Progress :=
  if block.isStart settings then
    { progress with
      sweepCount :=
        if progress.sweepStarted then progress.sweepCount + 1
        else progress.sweepCount
      doExit := progress.doExit ||
        progress.sweepStarted && settings.endsAt (progress.sweepCount + 1)
      sweepStarted := true
      timeStamp := block.timeStamp settings }
  else progress

def step (progress : Progress) (block : Block) : Progress :=
  let entered := progress.enter settings block
  if entered.doExit = false ∧ entered.sweepStarted = true ∧
      block.inBand = true then
    { entered with
      transformed :=
        entered.transformed ++ [block.entry settings entered.timeStamp] }
  else entered

/-- The blocks of one transfer, up to the one at which the callback
returns. -/
def runBlocks (progress : Progress) : List Block → Progress
  | [] => progress
  | block :: rest =>
      if hasMarker block.bytes && (progress.enter settings block).doExit then
        progress.step settings block
      else (progress.step settings block).runBlocks rest

def runCalls (progress : Progress) (calls : List (Transfer × Timeval)) :
    Progress :=
  calls.foldl (fun progress call => progress.runBlocks settings
    (call.1.blocksFrom call.2 0 blocksPerTransfer)) progress

end Progress

namespace State

variable (ops : FloatOps F) (settings : Settings F)

def progress (state : State F) : Progress where
  sweepCount := state.sweepCount
  doExit := state.doExit
  sweepStarted := state.sweepStarted
  timeStamp := state.timeStamp
  transformed := state.transformed

def rxCallbacks (state : State F) (calls : List (Transfer × Timeval)) :
    State F :=
  calls.foldl (fun state call =>
    (state.rxCallback ops settings call.1 call.2).2) state

/-- What every step on a block keeps, a run keeps, if it does not depend on
the byte count. -/
theorem rxCallbacks_invariant (Inv : State F → Prop)
    (hstep : ∀ state block, Inv state → Inv (state.blockStep ops settings block))
    (hbytes : ∀ (state : State F) byteCount,
      Inv state → Inv { state with byteCount := byteCount })
    {state : State F} (hinv : Inv state) (calls : List (Transfer × Timeval)) :
    Inv (state.rxCallbacks ops settings calls) := by
  induction calls generalizing state with
  | nil => exact hinv
  | cons call rest ih =>
      have hcall : Inv (state.rxCallback ops settings call.1 call.2).2 := by
        unfold rxCallback
        split_ifs
        · exact hinv
        · have hloop := rxLoop_invariant ops settings Inv hstep call.1 call.2
            blocksPerTransfer 0 _
            (hbytes state (state.byteCount + call.1.validLength) hinv)
          rw [Nat.zero_mul] at hloop
          exact hloop
      exact ih hcall

@[simp] theorem writeIfft_progress (state : State F) :
    (state.writeIfft ops settings).progress = state.progress := rfl

@[simp] theorem emitBlock_progress (state : State F) (frequency : UInt64) :
    (state.emitBlock ops settings frequency).progress = state.progress := by
  unfold emitBlock
  split_ifs <;> rfl

theorem completeSweep_frame (state : State F) :
    ∃ count exit, state.completeSweep settings =
      { state with sweepCount := count, doExit := exit } := by
  unfold completeSweep
  dsimp only
  split_ifs
  · exact ⟨_, _, rfl⟩
  · exact ⟨_, _, rfl⟩
  · exact ⟨_, _, rfl⟩

theorem completeSweep_progress (state : State F) :
    (state.completeSweep settings).progress = { state.progress with
      sweepCount := state.sweepCount + 1
      doExit := state.doExit || settings.endsAt (state.sweepCount + 1) } := by
  unfold completeSweep Settings.endsAt
  cases settings.oneShot with
  | true => simp [progress]
  | false =>
      by_cases hbound : settings.finiteMode = true ∧
          state.sweepCount + 1 = settings.numSweeps.toUInt64
      · simp [hbound, progress]
      · have hends : (settings.finiteMode &&
            state.sweepCount + 1 == settings.numSweeps.toUInt64) = false := by
          simpa using hbound
        simp [hbound, hends, progress]

theorem enterBlock_progress (state : State F) (block : Block) :
    (state.enterBlock ops settings block).progress =
      state.progress.enter settings block := by
  unfold enterBlock Progress.enter
  cases block.isStart settings with
  | false => rfl
  | true =>
      -- the count and `do_exit` change only if a sweep was under way
      simp only [↓reduceIte, startSweep]
      cases hstarted : state.sweepStarted with
      | false => simp [progress, hstarted, Block.timeStamp]
      | true =>
          have hcomplete : ∀ state' : State F,
              state'.progress = state.progress →
              (state'.completeSweep settings).progress =
                { state.progress with
                  sweepCount := state.sweepCount + 1
                  doExit := state.doExit ||
                    settings.endsAt (state.sweepCount + 1) } := by
            intro state' hsame
            rw [completeSweep_progress, hsame]
            simp only [progress, Progress.mk.injEq] at hsame
            simp [hsame]
          cases settings.ifftOutput with
          | true =>
              have h := hcomplete (state.writeIfft ops settings) rfl
              simp only [progress, Progress.mk.injEq] at h
              simp [progress, h, hstarted, Block.timeStamp]
          | false =>
              have h := hcomplete state rfl
              simp only [progress, Progress.mk.injEq] at h
              simp [progress, h, hstarted, Block.timeStamp]

theorem processBlock_progress (state : State F) (block : Block) :
    (state.processBlock ops settings block).progress =
      { state.progress with
        transformed := state.transformed ++
          [block.entry settings state.timeStamp] } := by
  unfold processBlock
  rw [emitBlock_progress]
  rfl

theorem blockStep_progress (state : State F) (block : Block) :
    (state.blockStep ops settings block).progress =
      state.progress.step settings block := by
  have henter := state.enterBlock_progress ops settings block
  unfold blockStep Progress.step
  rw [← henter]
  generalize state.enterBlock ops settings block = entered
  by_cases hprocess : entered.doExit = false ∧ entered.sweepStarted = true ∧
      block.inBand = true
  · rw [if_pos hprocess]
    exact (entered.processBlock_progress ops settings block).trans
      (if_pos hprocess).symm
  · rw [if_neg hprocess]
    exact (if_neg hprocess).symm

theorem rxLoop_progress (transfer : Transfer) (time : Timeval) (n j : ℕ)
    (state : State F) :
    (state.rxLoop ops settings transfer.buffer time n j
        (j * bytesPerBlock)).progress =
      state.progress.runBlocks settings (transfer.blocksFrom time j n) := by
  induction n generalizing j state with
  | zero => rfl
  | succ n ih =>
      have hstep := state.blockStep_progress ops settings (transfer.block time j)
      have henter : (state.enterBlock ops settings (transfer.block time j)).doExit =
          (state.progress.enter settings (transfer.block time j)).doExit := by
        rw [← enterBlock_progress ops]
        rfl
      rw [rxLoop, rxBlock_eq, Transfer.blocksFrom, List.range'_succ,
        List.map_cons, Progress.runBlocks, exitsAt, henter]
      split_ifs with hexit
      · exact hstep
      · rw [← hstep]
        exact ih (j + 1) _

theorem rxCallback_progress (hfd : settings.fd = true) (transfer : Transfer)
    (time : Timeval) (state : State F) :
    (state.rxCallback ops settings transfer time).2.progress =
      state.progress.runBlocks settings
        (transfer.blocksFrom time 0 blocksPerTransfer) := by
  unfold rxCallback
  rw [if_neg (by simp [hfd])]
  have hloop := rxLoop_progress ops settings transfer time blocksPerTransfer 0
    { state with byteCount := state.byteCount + transfer.validLength }
  rw [Nat.zero_mul] at hloop
  exact hloop

theorem rxCallbacks_progress (hfd : settings.fd = true) (state : State F)
    (calls : List (Transfer × Timeval)) :
    (state.rxCallbacks ops settings calls).progress =
      state.progress.runCalls settings calls := by
  induction calls generalizing state with
  | nil => rfl
  | cons call rest ih =>
      have hcall := rxCallback_progress ops settings hfd call.1 call.2 state
      unfold rxCallbacks Progress.runCalls at ih ⊢
      rw [List.foldl_cons, List.foldl_cons, ← hcall]
      exact ih _

theorem rxCallbacks_of_closed {ops : FloatOps F} {settings : Settings F}
    {state : State F} (hfd : settings.fd = false)
    (calls : List (Transfer × Timeval)) :
    state.rxCallbacks ops settings calls = state := by
  induction calls with
  | nil => rfl
  | cons call rest ih =>
      rw [rxCallbacks, List.foldl_cons, rxCallback, if_pos hfd]
      exact ih

end State

end HackRF.Sweep
