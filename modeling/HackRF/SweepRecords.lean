import HackRF.BinBands
import HackRF.SweepBound

/-!
# The records of a block

In binary and in text mode `rx_callback` fills a `hackrf_sweep_vals` record for
every block it transforms.  A record names a band from `lowfreq` to
`upperfreq`: the binary one has the levels of another band in it, and the text
one ends its band where it begins.
-/

namespace HackRF.Sweep

variable {F : Type*}

namespace Settings

def inBinary (settings : Settings F) : Settings F :=
  { settings with binaryOutput := true }

def inText (settings : Settings F) : Settings F :=
  { settings with binaryOutput := false, ifftOutput := false }

end Settings

/-! ## What is promised -/

def SweepVals.band (vals : SweepVals F) : Set ℝ :=
  Set.Ico (vals.lowfreq.toNat : ℝ) vals.upperfreq.toNat

/-- As many values as there should be, each the level of a bin in the band. -/
def SweepVals.Labelled (fftSize : FftSize) (frequency : UInt64)
    (power : ℕ → F) (vals : SweepVals F) : Prop :=
  vals.power.length = fftSize.quarter ∧
    ∀ level ∈ vals.power, ∃ bin < fftSize.size, level = power bin ∧
      binBand fftSize.size (frequency.toNat + offset) bin ⊆ vals.band

/-- The records which two modes fill for one block agree with each other, and
each with the levels of its mode. -/
structure RecordsAgree (fftSize : FftSize) (frequency : UInt64)
    (binaryPower textPower : ℕ → F) (binary text : SweepVals F) : Prop where
  lowfreq : binary.lowfreq = text.lowfreq
  upperfreq : binary.upperfreq = text.upperfreq
  freqmin : binary.freqmin = text.freqmin
  freqmax : binary.freqmax = text.freqmax
  fftBinWidth : binary.fftBinWidth = text.fftBinWidth
  values : binary.power = text.power
  binaryLabelled : binary.Labelled fftSize frequency binaryPower
  textLabelled : text.Labelled fftSize frequency textPower

/-! ## What the records are -/

/-- The fields of a record with the levels of some bins. -/
structure Describes (fftSize : FftSize) (frequency upper : UInt64)
    (bins : List ℕ) (power : ℕ → F) (vals : SweepVals F) : Prop where
  lowfreq : vals.lowfreq = frequency
  upperfreq : vals.upperfreq = upper
  freqmin : vals.freqmin =
    frequency + UInt64.ofNat (defaultSampleRateHz / 2)
  freqmax : vals.freqmax =
    frequency + UInt64.ofNat (defaultSampleRateHz * 3 / 4)
  fftBinWidth : vals.fftBinWidth = UInt64.ofNat ⌊fftSize.binWidth⌋₊
  values : vals.power = bins.map power

namespace State

variable (ops : FloatOps F) (settings : Settings F) (state : State F)
  (block : Block)

theorem processBlock_binary (hbinary : settings.binaryOutput = true) :
    ∃ vals,
      (state.processBlock ops settings block).records =
        state.records ++ [vals] ∧
      Describes settings.fftSize block.frequency
        (block.frequency + UInt64.ofNat (defaultSampleRateHz / 4))
        (rowBins settings.fftSize.size (settings.fftSize.size / 8))
        (state.processBlock ops settings block).power vals := by
  unfold processBlock emitBlock
  rw [if_pos hbinary]
  refine ⟨_, rfl, rfl, rfl, rfl, rfl, rfl, ?_⟩
  exact powers_eq_rowBins settings _ _

theorem processBlock_text (hbinary : settings.binaryOutput = false)
    (hifft : settings.ifftOutput = false) :
    ∃ vals,
      (state.processBlock ops settings block).records =
        state.records ++ [vals] ∧
      Describes settings.fftSize block.frequency block.frequency
        (rowBins settings.fftSize.size (settings.fftSize.size * 5 / 8))
        (state.processBlock ops settings block).power vals := by
  unfold processBlock emitBlock
  rw [if_neg (by simp [hbinary]), if_neg (by simp [hifft])]
  refine ⟨_, rfl, rfl, rfl, rfl, rfl, rfl, ?_⟩
  exact powers_eq_rowBins settings _ _

theorem processBlock_power :
    (state.processBlock ops settings block).power =
      (state.transformBlock ops settings block.frequency
        (block.sampleBuf settings)).power := by
  unfold processBlock emitBlock
  split_ifs
  · rfl
  · rfl
  · rfl

theorem processBlock_power_congr {state' : State F}
    (hfftwIn : state.fftwIn = state'.fftwIn) (hpower : state.power = state'.power) :
    (state.processBlock ops settings.inBinary block).power =
      (state'.processBlock ops settings.inText block).power := by
  rw [processBlock_power, processBlock_power]
  unfold transformBlock
  dsimp only
  rw [hfftwIn, hpower]
  rfl

/-- In each mode a block that is transformed adds one record.  The levels are
the same, and the two records have different halves of them. -/
theorem rxBlock_describes (transfer : Transfer) (time : Timeval) (j : ℕ)
    (hprocesses : state.Processes settings (transfer.block time j)) :
    let block := transfer.block time j
    let inBinary := (state.rxBlock ops settings.inBinary transfer.buffer time j
      (j * bytesPerBlock)).2
    let inText := (state.rxBlock ops settings.inText transfer.buffer time j
      (j * bytesPerBlock)).2
    inText.power = inBinary.power ∧
      ∃ binary text,
        inBinary.records = state.records ++ [binary] ∧
        inText.records = state.records ++ [text] ∧
        Describes settings.fftSize block.frequency
          (block.frequency + UInt64.ofNat (defaultSampleRateHz / 4))
          (rowBins settings.fftSize.size (settings.fftSize.size / 8))
          inBinary.power binary ∧
        Describes settings.fftSize block.frequency block.frequency
          (rowBins settings.fftSize.size (settings.fftSize.size * 5 / 8))
          inText.power text := by
  intro block inBinary inText
  have hbinary : inBinary = _ :=
    (congrArg Prod.snd (rxBlock_eq ops settings.inBinary transfer time j
      state)).trans
      (blockStep_of_processes ops settings.inBinary state block hprocesses)
  have htext : inText = _ :=
    (congrArg Prod.snd (rxBlock_eq ops settings.inText transfer time j
      state)).trans
      (blockStep_of_processes ops settings.inText state block hprocesses)
  obtain ⟨hrecords, hfftwIn, hpower⟩ :=
    state.enterBlock_arrays ops settings.inBinary block
  obtain ⟨hrecords', hfftwIn', hpower'⟩ :=
    state.enterBlock_arrays ops settings.inText block
  obtain ⟨binary, hadded, hdescribes⟩ :=
    (state.enterBlock ops settings.inBinary block).processBlock_binary ops
      settings.inBinary block rfl
  obtain ⟨text, hadded', hdescribes'⟩ :=
    (state.enterBlock ops settings.inText block).processBlock_text ops
      settings.inText block rfl rfl
  have hsame : inText.power = inBinary.power := by
    rw [hbinary, htext]
    exact (processBlock_power_congr ops settings _ block
      (hfftwIn.trans hfftwIn'.symm) (hpower.trans hpower'.symm)).symm
  rw [hrecords, ← hbinary] at hadded
  rw [hrecords', ← htext] at hadded'
  rw [← hbinary] at hdescribes
  rw [← htext] at hdescribes'
  exact ⟨hsame, binary, text, hadded, hadded', hdescribes, hdescribes'⟩

end State

/-! ## What they name -/

namespace Describes

variable {fftSize : FftSize} {frequency : UInt64} {bins bins' : List ℕ}
  {power power' : ℕ → F} {binary text : SweepVals F}

theorem not_recordsAgree
    (hbinary : Describes fftSize frequency
      (frequency + UInt64.ofNat (defaultSampleRateHz / 4)) bins power binary)
    (htext : Describes fftSize frequency frequency bins' power' text) :
    ¬ RecordsAgree fftSize frequency power power' binary text := by
  intro hagree
  have hupper := hagree.upperfreq
  rw [hbinary.upperfreq, htext.upperfreq] at hupper
  have hsum := congrArg UInt64.toNat hupper
  have hquarter : (UInt64.ofNat (defaultSampleRateHz / 4)).toNat = 5000000 :=
    rfl
  rw [UInt64.toNat_add, hquarter] at hsum
  have hlt := frequency.toNat_lt
  omega

theorem band_text
    (htext : Describes fftSize frequency frequency bins' power text) :
    text.band = ∅ := by
  rw [SweepVals.band, htext.lowfreq, htext.upperfreq, Set.Ico_self]

theorem band_binary
    (hbinary : Describes fftSize frequency
      (frequency + UInt64.ofNat (defaultSampleRateHz / 4)) bins power binary)
    (hmax : frequency ≤ maxFrequency) :
    binary.band =
      Set.Ico (frequency.toNat : ℝ) (frequency.toNat + 5000000) := by
  have hquarter : (UInt64.ofNat (defaultSampleRateHz / 4)).toNat = 5000000 :=
    rfl
  have hbound : maxFrequency.toNat = 7250000000 := rfl
  have hupper : (frequency +
      UInt64.ofNat (defaultSampleRateHz / 4)).toNat =
        frequency.toNat + 5000000 := by
    rw [UInt64.le_iff_toNat_le] at hmax
    rw [UInt64.toNat_add, hquarter]
    omega
  rw [SweepVals.band, hbinary.lowfreq, hbinary.upperfreq, hupper]
  push_cast
  rfl

/-- The binary record has the levels of bins 10 MHz above its band. -/
theorem disjoint_band
    (hbinary : Describes fftSize frequency
      (frequency + UInt64.ofNat (defaultSampleRateHz / 4)) bins power binary)
    (hmax : frequency ≤ maxFrequency) :
    ∀ bin ∈ rowBins fftSize.size (fftSize.size / 8),
      Disjoint (binBand fftSize.size (frequency.toNat + offset) bin)
        binary.band := by
  intro bin hbin
  have htiles := tilesBand_high fftSize.odd_multiple frequency.toNat
  have hinside : binBand fftSize.size (frequency.toNat + offset) bin ⊆
      Set.Ico (frequency.toNat + 10000000 : ℝ) (frequency.toNat + 15000000) := by
    rw [← htiles.covers]
    exact Set.subset_biUnion_of_mem hbin
  have horder : (frequency.toNat + 5000000 : ℝ) ≤
      frequency.toNat + 10000000 := by
    linarith
  rw [hbinary.band_binary hmax]
  apply Set.disjoint_of_subset_left hinside
  rw [Set.Ico_disjoint_Ico]
  exact (min_le_right _ _).trans (horder.trans (le_max_left _ _))

/-- The text record has the levels which belong to the band of the binary
one. -/
theorem subset_band
    (hbinary : Describes fftSize frequency
      (frequency + UInt64.ofNat (defaultSampleRateHz / 4)) bins power binary)
    (hmax : frequency ≤ maxFrequency) :
    ∀ bin ∈ rowBins fftSize.size (fftSize.size * 5 / 8),
      binBand fftSize.size (frequency.toNat + offset) bin ⊆ binary.band := by
  intro bin hbin
  have htiles := tilesBand_low fftSize.odd_multiple frequency.toNat
  rw [hbinary.band_binary hmax, ← htiles.covers]
  exact Set.subset_biUnion_of_mem hbin

end Describes

/-! ## Both modes -/

section Modes

variable (ops : FloatOps F) (settings : Settings F) (state : State F)
  (transfer : Transfer) (time : Timeval) (j : ℕ)

/-- The four other fields agree.  Of the two halves of the levels the binary
record has the one which lies 10 MHz above its band, and the text record, which
names no band, the one which lies in it. -/
theorem rxBlock_recordBands
    (hprocesses : state.Processes settings (transfer.block time j)) :
    let block := transfer.block time j
    let inBinary := (state.rxBlock ops settings.inBinary transfer.buffer time j
      (j * bytesPerBlock)).2
    let inText := (state.rxBlock ops settings.inText transfer.buffer time j
      (j * bytesPerBlock)).2
    let bandOf := binBand settings.fftSize.size (block.frequency.toNat + offset)
    ∃ binary text : SweepVals F,
      inBinary.records = state.records ++ [binary] ∧
      inText.records = state.records ++ [text] ∧
      binary.lowfreq = text.lowfreq ∧ binary.freqmin = text.freqmin ∧
      binary.freqmax = text.freqmax ∧ binary.fftBinWidth = text.fftBinWidth ∧
      text.band = ∅ ∧
      (∃ bins : List ℕ, binary.power = bins.map inBinary.power ∧
        ∀ bin ∈ bins, Disjoint (bandOf bin) binary.band) ∧
      ∃ bins : List ℕ, text.power = bins.map inText.power ∧
        ∀ bin ∈ bins, bandOf bin ⊆ binary.band := by
  obtain ⟨-, binary, text, hadded, hadded', hbinary, htext⟩ :=
    state.rxBlock_describes ops settings transfer time j hprocesses
  have hmax := Block.frequency_le_of_inBand hprocesses.2.2
  refine ⟨binary, text, hadded, hadded', ?_, ?_, ?_, ?_, htext.band_text,
    ⟨_, hbinary.values, hbinary.disjoint_band hmax⟩,
    _, htext.values, hbinary.subset_band hmax⟩
  · rw [hbinary.lowfreq, htext.lowfreq]
  · rw [hbinary.freqmin, htext.freqmin]
  · rw [hbinary.freqmax, htext.freqmax]
  · rw [hbinary.fftBinWidth, htext.fftBinWidth]

/-- There is no block for which the records of the two modes agree. -/
theorem rxBlock_records_disagree
    (hprocesses : state.Processes settings (transfer.block time j)) :
    let inBinary := (state.rxBlock ops settings.inBinary transfer.buffer time j
      (j * bytesPerBlock)).2
    let inText := (state.rxBlock ops settings.inText transfer.buffer time j
      (j * bytesPerBlock)).2
    ∃ binary text,
      inBinary.records = state.records ++ [binary] ∧
      inText.records = state.records ++ [text] ∧
      ¬ RecordsAgree settings.fftSize (transfer.block time j).frequency
        inBinary.power inText.power binary text := by
  obtain ⟨-, binary, text, hadded, hadded', hbinary, htext⟩ :=
    state.rxBlock_describes ops settings transfer time j hprocesses
  exact ⟨binary, text, hadded, hadded', hbinary.not_recordsAgree htext⟩

end Modes

/-- The first block of a sweep from 0 MHz. -/
theorem rxBlock_records_disagree_start :
    ∃ binary text,
      ((State.initial ()).rxBlock (.forgetful .wrapping)
        oneShotSettings.inBinary startTransfer.buffer ⟨0, 0⟩ 0
        (0 * bytesPerBlock)).2.records = [binary] ∧
      ((State.initial ()).rxBlock (.forgetful .wrapping)
        oneShotSettings.inText startTransfer.buffer ⟨0, 0⟩ 0
        (0 * bytesPerBlock)).2.records = [text] ∧
      ¬ RecordsAgree oneShotSettings.fftSize 0
        (fun _ => ()) (fun _ => ()) binary text := by
  have hprocesses : (State.initial ()).Processes oneShotSettings
      (startTransfer.block ⟨0, 0⟩ 0) := by
    exact ⟨by decide, by decide, by decide⟩
  have hfrequency : (startTransfer.block ⟨0, 0⟩ 0).frequency = 0 := by decide
  have hdisagree := rxBlock_records_disagree (.forgetful .wrapping)
    oneShotSettings (State.initial ()) startTransfer ⟨0, 0⟩ 0 hprocesses
  dsimp only at hdisagree
  rw [hfrequency] at hdisagree
  exact hdisagree

/-- A block at 2400 MHz: the binary record names a band up to 2405 MHz, and the
text one ends where it begins. -/
theorem rxBlock_records_disagree_at :
    let settings := { oneShotSettings with
      frequencies := fun i => if i = 1 then 2420 else 2400 }
    let transfer : Transfer := {
      buffer := fun i => [0x7F, 0x7F, 0x00, 0x18, 0x0D, 0x8F].getD i 0
      validLength := 262144 }
    let inBinary := ((State.initial ()).rxBlock (.forgetful .wrapping)
      settings.inBinary transfer.buffer ⟨0, 0⟩ 0 (0 * bytesPerBlock)).2
    let inText := ((State.initial ()).rxBlock (.forgetful .wrapping)
      settings.inText transfer.buffer ⟨0, 0⟩ 0 (0 * bytesPerBlock)).2
    ∃ binary text,
      inBinary.records = [binary] ∧ inText.records = [text] ∧
      binary.upperfreq = 2405000000 ∧ text.upperfreq = 2400000000 ∧
      ¬ RecordsAgree settings.fftSize 2400000000
        inBinary.power inText.power binary text := by
  intro settings transfer inBinary inText
  have hprocesses : (State.initial ()).Processes settings
      (transfer.block ⟨0, 0⟩ 0) := by
    exact ⟨by decide, by decide, by decide⟩
  have hfrequency : (transfer.block ⟨0, 0⟩ 0).frequency = 2400000000 := by
    decide
  obtain ⟨-, binary, text, hadded, hadded', hbinary, htext⟩ :=
    (State.initial ()).rxBlock_describes (.forgetful .wrapping) settings
      transfer ⟨0, 0⟩ 0 hprocesses
  rw [hfrequency] at hbinary htext
  refine ⟨binary, text, hadded, hadded', ?_, htext.upperfreq,
    hbinary.not_recordsAgree htext⟩
  rw [hbinary.upperfreq]
  decide

end HackRF.Sweep
