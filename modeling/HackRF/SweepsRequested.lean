import HackRF.SweepBound
import HackRF.SweepHistory

/-!
# The number of sweeps a request asks for

`hackrf_sweep` reads `num_sweeps` into a local variable which hides the global
of that name, and never sets `finite_mode`.  So the callback runs without a
bound, and does what the request asks for only as long as the stream does not
bring the sweeps to their number.
-/

namespace HackRF.Sweep

variable {F : Type*} {settings : Settings F} {state : State F}

/-- At every point of the run `do_exit` is set exactly if the `n`-th sweep is
complete, that is if more than `n` start-frequency blocks have been seen. -/
def ExitsAfter (ops : FloatOps F) (settings : Settings F) (n : ℕ)
    (state : State F) (calls : List (Transfer × Timeval)) : Prop :=
  ∀ before call, before ++ [call] <+: calls → ∀ k ≤ blocksPerTransfer,
    (((state.rxCallbacks ops settings before).duringCall ops settings call
        k).doExit = true ↔
      n < (stream before ++ call.1.blocksFrom call.2 0 k).countP
        (Block.isStart settings))

/-- The initial globals, with a stream or without one. -/
def Globals.atStart (zero : F) (fd : Bool) : Globals F :=
  { Globals.initial zero with fd := fd }

/-- What `rx_callback` reads while the first call of `hackrf_sweep` streams. -/
def requestSettings (ops : SweepOps F) (zero : F) (fd : Bool)
    (args : HackrfSweepArgs) (fftSize : FftSize) : Settings F :=
  ((Globals.atStart zero fd).prepared ops args).settings fftSize

/-! ## Without a bound -/

namespace State

theorem blockStep_doExit_of_unbounded (ops : FloatOps F)
    (hunbounded : settings.Unbounded) (hexit : state.doExit = false)
    (block : Block) :
    (state.blockStep ops settings block).doExit = false := by
  rw [blockStep_doExit, enterBlock_doExit, hexit, hunbounded.endsAt]
  simp

theorem duringCall_doExit_of_unbounded (ops : FloatOps F)
    (hunbounded : settings.Unbounded) (hexit : state.doExit = false)
    (before : List (Transfer × Timeval)) (call : Transfer × Timeval) (k : ℕ) :
    ((state.rxCallbacks ops settings before).duringCall ops settings call
      k).doExit = false := by
  have hbefore := rxCallbacks_invariant ops settings
    (fun state => state.doExit = false)
    (fun state block hstate =>
      blockStep_doExit_of_unbounded ops hunbounded hstate block)
    (fun _ _ hstate => hstate) hexit before
  unfold duringCall
  split_ifs
  · exact hbefore
  · have hloop := rxLoop_invariant ops settings
      (fun state => state.doExit = false)
      (fun state block hstate =>
        blockStep_doExit_of_unbounded ops hunbounded hstate block)
      call.1 call.2 k 0 { state.rxCallbacks ops settings before with
        byteCount := (state.rxCallbacks ops settings before).byteCount +
          call.1.validLength } hbefore
    rw [Nat.zero_mul] at hloop
    exact hloop

end State

theorem Transfer.blocksFrom_isPrefix (transfer : Transfer) (time : Timeval)
    {k m : ℕ} (hk : k ≤ m) :
    transfer.blocksFrom time 0 k <+: transfer.blocksFrom time 0 m := by
  obtain ⟨rest, rfl⟩ := Nat.exists_eq_add_of_le hk
  refine ⟨transfer.blocksFrom time k rest, ?_⟩
  rw [blocksFrom, blocksFrom, blocksFrom, ← List.map_append]
  congr 1
  simpa using @List.range'_append 0 k rest 1

theorem stream_concat_isPrefix {before calls : List (Transfer × Timeval)}
    {call : Transfer × Timeval} (hbegins : before ++ [call] <+: calls) {k : ℕ}
    (hk : k ≤ blocksPerTransfer) :
    stream before ++ call.1.blocksFrom call.2 0 k <+: stream calls := by
  obtain ⟨after, rfl⟩ := hbegins
  have hstream : stream (before ++ [call] ++ after) =
      stream before ++
        (call.1.blocksFrom call.2 0 blocksPerTransfer ++ stream after) := by
    simp [stream]
  rw [hstream, List.prefix_append_right_inj]
  exact (call.1.blocksFrom_isPrefix call.2 hk).trans (List.prefix_append _ _)

theorem exitsAfter_iff_of_unbounded (ops : FloatOps F)
    (hunbounded : settings.Unbounded) (hexit : state.doExit = false) (n : ℕ)
    (calls : List (Transfer × Timeval)) :
    ExitsAfter ops settings n state calls ↔
      (stream calls).countP (Block.isStart settings) ≤ n := by
  constructor
  · intro hexits
    induction calls using List.reverseRecOn with
    | nil => exact Nat.zero_le _
    | append_singleton before call _ =>
        have hlast := hexits before call List.prefix_rfl blocksPerTransfer le_rfl
        rw [State.duringCall_doExit_of_unbounded ops hunbounded hexit] at hlast
        simpa [stream] using hlast
  · intro hcount before call hbegins k hk
    rw [State.duringCall_doExit_of_unbounded ops hunbounded hexit]
    have hsublist := (stream_concat_isPrefix hbegins hk).sublist.countP_le
      (p := Block.isStart settings)
    simp only [Bool.false_eq_true, false_iff, not_lt]
    exact hsublist.trans hcount

/-! ## What a request leads to -/

theorem requestSettings_unbounded (ops : SweepOps F) (zero : F) (fd : Bool)
    (args : HackrfSweepArgs) (fftSize : FftSize) :
    (requestSettings ops zero fd args fftSize).Unbounded := by
  obtain ⟨numRanges, stepCount, frequencies, fftSize', window, hprepared⟩ :=
    (Globals.atStart zero fd).prepared_frame ops args
  rw [requestSettings, hprepared]
  exact ⟨rfl, rfl⟩

/-- The number of sweeps a request asks for is honoured exactly if the stream
brings no more than as many start-frequency blocks. -/
theorem requestedSweeps_iff (ops : SweepOps F) (zero : F) (fd : Bool)
    (args : HackrfSweepArgs) (fftSize : FftSize)
    (calls : List (Transfer × Timeval)) :
    ExitsAfter ops.toFloatOps (requestSettings ops zero fd args fftSize)
        args.numSweeps.toNat (State.initial zero) calls ↔
      (stream calls).countP
          (Block.isStart (requestSettings ops zero fd args fftSize)) ≤
        args.numSweeps.toNat :=
  exitsAfter_iff_of_unbounded ops.toFloatOps
    (requestSettings_unbounded ops zero fd args fftSize) rfl _ calls

/-- A request for a single sweep from 0 to 20 MHz. -/
def oneSweepArgs : HackrfSweepArgs where
  freqMin := 0
  freqMax := 20
  requestedFftBinWidth := 1000000
  numSweeps := 1
  vgaGain := 20
  lnaGain := 16

/-- After the second block the sweep is complete, but the callback goes on. -/
theorem requestedSweeps_fails_one :
    ¬ ExitsAfter (FloatOps.forgetful .wrapping)
      (requestSettings (.forgetful .wrapping) () true oneSweepArgs
        ⟨20, by decide, by decide, by decide⟩)
      oneSweepArgs.numSweeps.toNat (State.initial ())
      [(startTransfer, ⟨0, 0⟩)] := by
  have hroom : (Globals.atStart () true).numRanges < maxSweepRanges := by decide
  have hcheck := Globals.checkRange_eq_ok oneSweepArgs hroom (by decide)
    (by decide)
  have hstart : ∀ block : Block, block.isStart (requestSettings
      (.forgetful .wrapping) () true oneSweepArgs
        ⟨20, by decide, by decide, by decide⟩) = block.startsAt 0 :=
    Globals.isStart_prepared _ _ hcheck rfl
  rw [exitsAfter_iff_of_unbounded _ (requestSettings_unbounded _ _ _ _ _) rfl]
  have hcount : (stream [(startTransfer, ⟨0, 0⟩)]).countP
      (Block.startsAt 0) = 16 := by decide
  rw [funext hstart, hcount]
  decide

end HackRF.Sweep
