import HackRF.SweepProgress
import HackRF.SweepCalls

/-!
# What a sweep inherits from earlier ones

Nothing resets the globals between two calls of `hackrf_sweep`: the ranges of
earlier calls stay in `frequencies`, also when the call that stored them was
rejected afterwards, and so do the flags and the count of `rx_callback`.  A
call is independent of its history as long as it is rejected before its range
is stored, or does not come to stream, or is the first one to store a range.
-/

namespace HackRF.Sweep

variable {F : Type*}

/-! ## The flags at the start of a stream -/

def Progress.Fresh (progress : Progress) : Prop :=
  progress.doExit = false ∧ progress.sweepStarted = false ∧
    progress.sweepCount = 0

/-- The block has the header of `freq_min`. -/
def Block.startsAt (freqMin : UInt32) (block : Block) : Bool :=
  hasMarker block.bytes &&
    block.frequency ==
      UInt64.ofNat freqOneMhz * freqMin.toUInt16.toUInt64

/-- Not a signal, nor a transfer with a start-frequency block. -/
def Incoming.Quiet (fd : Bool) (freqMin : UInt32) : Incoming → Prop
  | .transfer received time => fd = true →
      ∀ block ∈ received.blocksFrom time 0 blocksPerTransfer,
        block.startsAt freqMin = false
  | .signal => False

/-- The number of ranges and the frequencies passed to `hackrf_init_sweep`. -/
def Event.sweptRanges : Event → Option (ℕ × List UInt16)
  | .call _ _ (.initSweep frequencyList numRanges _ _ _ _) _ =>
      some (numRanges, frequencyList)
  | _ => none

def Event.IsInitSweep : Event → Prop
  | .call _ _ (.initSweep ..) _ => True
  | _ => False

/-- Only the calls of `hackrf_init_sweep` are read. -/
def ReadsInitSweep {α : Type*} (reading : Event → Option α) : Prop :=
  ∀ event found, reading event = some found → event.IsInitSweep

theorem readsInitSweep_sweptRanges : ReadsInitSweep Event.sweptRanges := by
  intro event swept hswept
  unfold Event.sweptRanges at hswept
  split at hswept
  next => trivial
  next => cases hswept

/-- What the independence law says of one call. -/
structure Independent (ops : SweepOps F) (args : HackrfSweepArgs)
    (outs : SweepOutcomes) (globals : Globals F) (lib : Library) : Prop where
  ranges : ∀ event ∈ (globals.hackrfSweep ops args outs lib).events,
    ∀ swept, event.sweptRanges = some swept →
      ∃ range, acceptRange args.freqMin args.freqMax = some range ∧
        swept = (1, [range.lo, range.plannedHi])
  fresh : ∀ doExit sweepStarted sweepCount,
    .enterLoop doExit sweepStarted sweepCount ∈
      (globals.hackrfSweep ops args outs lib).events →
    doExit = false ∧ sweepStarted = false ∧ sweepCount = 0
  unchanged : ∀ message,
    .rejected message ∈ (globals.hackrfSweep ops args outs lib).events →
    (globals.hackrfSweep ops args outs lib).globals.numRanges =
        globals.numRanges ∧
      (globals.hackrfSweep ops args outs lib).globals.frequencies =
        globals.frequencies

/-- The call is rejected before its range is stored, or its reception does not
start, or it is the first to store a range and finds the flags unset. -/
def KeepsNothing (ops : SweepOps F) (args : HackrfSweepArgs)
    (outs : SweepOutcomes) (globals : Globals F) : Prop :=
  (∃ error, globals.checkRange args = .error error) ∨
    (∃ fftSize, (globals.checkArguments ops args).1 = .ok fftSize) ∧
      (¬ outs.Starts ∨
        globals.numRanges = 0 ∧
          (¬ outs.Configures globals ∨
            globals.rx.progress.Fresh ∧
              ∀ incoming ∈ outs.early,
                incoming.Quiet globals.fd args.freqMin))

namespace Progress

variable {settings : Settings F} {progress : Progress} {block : Block}

theorem step_fresh_iff :
    (progress.step settings block).Fresh ↔
      progress.Fresh ∧ block.isStart settings = false := by
  have hflags : (progress.step settings block).sweepCount =
      (progress.enter settings block).sweepCount := by
    unfold step
    dsimp only
    split_ifs <;> rfl
  unfold Fresh
  rw [step_doExit, step_sweepStarted, hflags]
  cases hstart : block.isStart settings with
  | false => simp [enter_of_not_start hstart]
  | true => simp

theorem runBlocks_fresh_iff {blocks : List Block} :
    (progress.runBlocks settings blocks).Fresh ↔
      progress.Fresh ∧ ∀ block ∈ blocks, block.isStart settings = false := by
  induction blocks generalizing progress with
  | nil => simp [runBlocks]
  | cons block rest ih =>
      rw [runBlocks, List.forall_mem_cons, ← and_assoc, ← step_fresh_iff]
      split_ifs with hexits
      · -- the callback returns because `do_exit` is set
        simp only [Bool.and_eq_true] at hexits
        have hnot : ¬ (progress.step settings block).Fresh := by
          intro hfresh
          have hexit := hfresh.1
          rw [step_doExit, hexits.2] at hexit
          simp at hexit
        simp [hnot]
      · exact ih

end Progress

namespace State

variable {settings : Settings F} {freqMin : UInt32}

theorem deliver_fresh_iff (ops : FloatOps F)
    (hstart : ∀ block : Block,
      block.isStart settings = block.startsAt freqMin)
    (state : State F) (incoming : Incoming) :
    (Incoming.deliver ops settings state incoming).progress.Fresh ↔
      state.progress.Fresh ∧ incoming.Quiet settings.fd freqMin := by
  cases incoming with
  | signal => simp [Incoming.deliver, Incoming.Quiet, Progress.Fresh, progress]
  | transfer received time =>
      rw [Incoming.deliver, Incoming.Quiet]
      cases hfd : settings.fd with
      | false => simp [rxCallback, hfd]
      | true =>
          rw [rxCallback_progress ops settings hfd,
            Progress.runBlocks_fresh_iff]
          simp only [hstart, true_imp_iff]

theorem foldl_deliver_fresh_iff (ops : FloatOps F)
    (hstart : ∀ block : Block,
      block.isStart settings = block.startsAt freqMin)
    (state : State F) (incoming : List Incoming) :
    (incoming.foldl (Incoming.deliver ops settings) state).progress.Fresh ↔
      state.progress.Fresh ∧
        ∀ arrival ∈ incoming, arrival.Quiet settings.fd freqMin := by
  induction incoming generalizing state with
  | nil => simp
  | cons arrival rest ih =>
      rw [List.foldl_cons, ih, deliver_fresh_iff ops hstart,
        List.forall_mem_cons, and_assoc]

end State

/-! ## One call -/

namespace Globals

variable {globals : Globals F} {args : HackrfSweepArgs} {outs : SweepOutcomes}
  {ops : SweepOps F} {range : SweepRange}

theorem acceptRange_lo
    (haccept : acceptRange args.freqMin args.freqMax = some range) :
    range.lo = args.freqMin.toUInt16 := by
  unfold acceptRange at haccept
  split_ifs at haccept
  rw [← Option.some.inj haccept]

theorem prepared_of_checkRange_ok {next : Globals F}
    (hcheck : globals.checkRange args = .ok next) (ops : SweepOps F) :
    ∃ range fftSize window,
      acceptRange args.freqMin args.freqMax = some range ∧
        globals.prepared ops args =
          ({ globals.appendRange range.lo range.hi with
            fftSize := fftSize, window := window } : Globals F).planRanges := by
  rcases globals.checkArguments_cases ops args with
    ⟨error, herror, -⟩ | ⟨range, fftSize, window, haccept, -, hchecked⟩
  · simp [hcheck] at herror
  · exact ⟨range, fftSize, window, haccept, by rw [prepared, hchecked]⟩

theorem prepared_numRanges {next : Globals F}
    (hcheck : globals.checkRange args = .ok next) (ops : SweepOps F) :
    (globals.prepared ops args).numRanges = globals.numRanges + 1 := by
  obtain ⟨range, fftSize, window, -, hprepared⟩ :=
    prepared_of_checkRange_ok hcheck ops
  obtain ⟨stepCount, frequencies, hplan⟩ := planRanges_frame
    ({ globals.appendRange range.lo range.hi with
      fftSize := fftSize, window := window } : Globals F)
  rw [hprepared, hplan]
  rfl

theorem prepared_first {next : Globals F}
    (hcheck : globals.checkRange args = .ok next)
    (hfirst : globals.numRanges = 0) (ops : SweepOps F) :
    ∃ range, acceptRange args.freqMin args.freqMax = some range ∧
      (globals.prepared ops args).frequencies 0 = range.lo ∧
        (globals.prepared ops args).frequencies 1 = range.plannedHi := by
  obtain ⟨range, fftSize, window, haccept, hprepared⟩ :=
    prepared_of_checkRange_ok hcheck ops
  refine ⟨range, haccept, ?_⟩
  rw [hprepared, planRanges_one (congrArg (· + 1) hfirst)]
  constructor
  · rw [planRange_frequencies_of_ne (by omega)]
    simp [appendRange, hfirst]
  · apply planRange_frequencies_hi range
    · simp [appendRange, hfirst]
    · simp [appendRange, hfirst]

theorem configures_prepared_iff :
    outs.Configures (globals.prepared ops args) ↔ outs.Configures globals := by
  obtain ⟨numRanges, stepCount, frequencies, fftSize, window, hprepared⟩ :=
    globals.prepared_frame ops args
  rw [hprepared]
  rfl

theorem initSweep_mem_setUp_iff {event : Event} (hevent : event.IsInitSweep) :
    event ∈ (globals.setUp args outs).2 ↔
      outs.Starts ∧
        event = globals.call globals.initSweepCall outs.initSweep := by
  by_cases hstarts : outs.Starts
  · obtain ⟨enables, hevents, henables, -⟩ :=
      globals.setUp_of_starts args hstarts
    rw [hevents, List.mem_append]
    constructor
    · rintro (hmem | hmem)
      · simp only [List.mem_cons, List.not_mem_nil, or_false] at hmem
        rcases hmem with rfl | rfl | rfl | rfl
        · cases hevent
        · cases hevent
        · cases hevent
        · exact ⟨hstarts, rfl⟩
      · obtain ⟨function, result, rfl, hfunction⟩ := henables event hmem
        cases function with
        | initSweep => cases hfunction
        | _ => cases hevent
    · rintro ⟨-, rfl⟩
      simp
  · rw [setUp_of_not_starts hstarts]
    simp only [List.mem_cons, List.not_mem_nil, or_false, hstarts, false_and,
      iff_false]
    rintro (rfl | rfl | rfl)
    all_goals cases hevent

theorem reading_setUp_iff {α : Type*} {reading : Event → Option α}
    (hreading : ReadsInitSweep reading) {found : α} :
    (∃ event ∈ (globals.setUp args outs).2, reading event = some found) ↔
      outs.Starts ∧
        reading (globals.call globals.initSweepCall outs.initSweep) =
          some found := by
  constructor
  · rintro ⟨event, hmem, hfound⟩
    obtain ⟨hstarts, rfl⟩ :=
      (initSweep_mem_setUp_iff (hreading event found hfound)).mp hmem
    exact ⟨hstarts, hfound⟩
  · rintro ⟨hstarts, hfound⟩
    have hinit := hreading _ found hfound
    exact ⟨_, (initSweep_mem_setUp_iff hinit).mpr ⟨hstarts, rfl⟩, hfound⟩

theorem sweptRanges_setUp_iff {swept : ℕ × List UInt16} :
    (∃ event ∈ (globals.setUp args outs).2, event.sweptRanges = some swept) ↔
      outs.Starts ∧ swept = (globals.numRanges,
        (List.range (2 * globals.numRanges)).map globals.frequencies) := by
  rw [reading_setUp_iff readsInitSweep_sweptRanges]
  simp [call, initSweepCall, Event.sweptRanges, eq_comm]

theorem independent_of_error {lib : Library} {error : ArgumentError}
    (hcheck : globals.checkRange args = .error error) :
    Independent ops args outs globals lib := by
  have hchecked : globals.checkArguments ops args = (.error error, globals) := by
    rw [checkArguments, hcheck]
  have hsweep : globals.hackrfSweep ops args outs lib =
      ⟨.failure, [.rejected error.message], globals, lib⟩ := by
    rw [hackrfSweep_of_error (congrArg Prod.fst hchecked), hchecked]
  exact {
    ranges := by simp [hsweep, Event.sweptRanges]
    fresh := by simp [hsweep]
    unchanged := by simp [hsweep] }

theorem not_independent_of_error {lib : Library} {next : Globals F}
    {error : ArgumentError} (hcheck : globals.checkRange args = .ok next)
    (herror : (globals.checkArguments ops args).1 = .error error) :
    ¬ Independent ops args outs globals lib := by
  intro hindependent
  have hsame := (hindependent.unchanged error.message
    (by simp [hackrfSweep_of_error herror])).1
  rcases globals.checkArguments_cases ops args with
    ⟨error', herror', -⟩ | ⟨range, fftSize, window, -, -, hchecked⟩
  · simp [hcheck] at herror'
  · rw [hackrfSweep_of_error herror, hchecked] at hsame
    simp [appendRange] at hsame

theorem ranges_iff (ops : SweepOps F) (outs : SweepOutcomes)
    {next : Globals F} (hcheck : globals.checkRange args = .ok next) :
    (∀ event ∈ ((globals.prepared ops args).setUp args outs).2,
      ∀ swept, event.sweptRanges = some swept →
        ∃ range, acceptRange args.freqMin args.freqMax = some range ∧
          swept = (1, [range.lo, range.plannedHi])) ↔
      (outs.Starts → globals.numRanges = 0) := by
  constructor
  · intro hranges hstarts
    obtain ⟨event, hmem, hevent⟩ :=
      sweptRanges_setUp_iff.mpr ⟨hstarts, rfl⟩
    obtain ⟨range, -, hone⟩ := hranges event hmem _ hevent
    rw [prepared_numRanges hcheck, Prod.mk.injEq] at hone
    omega
  · intro hfirst event hmem swept hevent
    obtain ⟨hstarts, rfl⟩ := sweptRanges_setUp_iff.mp ⟨event, hmem, hevent⟩
    obtain ⟨range, haccept, hlo, hhi⟩ :=
      prepared_first hcheck (hfirst hstarts) ops
    have hone : (globals.prepared ops args).numRanges = 1 := by
      rw [prepared_numRanges hcheck, hfirst hstarts]
    exact ⟨range, haccept, by simp [hone, List.range_succ, hlo, hhi]⟩

/-- The events that follow the entry into the loop. -/
def Follows : Event → Prop
  | .call _ _ function _ =>
      function = .isStreaming ∨ function = .stopRx ∨ function = .close
  | .exit _ => True
  | _ => False

theorem reading_of_follows {α : Type*} {reading : Event → Option α}
    (hreading : ReadsInitSweep reading) {event : Event}
    (hfollows : Follows event) : reading event = none := by
  cases hfound : reading event with
  | none => rfl
  | some found =>
      have hinit := hreading event found hfound
      unfold Follows at hfollows
      split at hfollows
      next => rcases hfollows with rfl | rfl | rfl <;> cases hinit
      next => cases hinit
      next => cases hfollows

theorem stream_follows (ops : FloatOps F) (settings : Settings F)
    (outs : SweepOutcomes) (lib : Library) (globals : Globals F) :
    ∃ rest, (globals.stream ops settings outs lib).events =
        .enterLoop (globals.receive ops settings outs.early).rx.doExit
          (globals.receive ops settings outs.early).rx.sweepStarted
          (globals.receive ops settings outs.early).rx.sweepCount :: rest ∧
      ∀ event ∈ rest, Follows event := by
  obtain ⟨asked, hevents, hasked⟩ :=
    stream_events ops settings outs lib globals
  refine ⟨asked ++ (globals.shutDown outs lib).1, by simp [hevents], ?_⟩
  intro event hevent
  rcases List.mem_append.mp hevent with hasking | hclosing
  · obtain ⟨result, rfl⟩ := hasked event hasking
    exact .inl rfl
  · unfold shutDown at hclosing
    cases hdevice : globals.device with
    | none => simp [hdevice] at hclosing
    | some handle =>
        simp only [hdevice, List.mem_cons, List.not_mem_nil, or_false]
          at hclosing
        rcases hclosing with rfl | rfl | rfl
        · exact .inr (.inl rfl)
        · exact .inr (.inr rfl)
        · trivial

theorem isStart_prepared (ops : SweepOps F) (fftSize : FftSize)
    {next : Globals F} (hcheck : globals.checkRange args = .ok next)
    (hfirst : globals.numRanges = 0) (block : Block) :
    block.isStart ((globals.prepared ops args).settings fftSize) =
      block.startsAt args.freqMin := by
  obtain ⟨range, haccept, hlo, -⟩ := prepared_first hcheck hfirst ops
  rw [Block.startsAt, ← acceptRange_lo haccept, ← hlo]
  rfl

theorem fresh_iff (ops : SweepOps F) (outs : SweepOutcomes)
    (fftSize : FftSize) {next : Globals F}
    (hcheck : globals.checkRange args = .ok next)
    (hfirst : globals.numRanges = 0) :
    ((globals.prepared ops args).receive ops.toFloatOps
        ((globals.prepared ops args).settings fftSize)
        outs.early).rx.progress.Fresh ↔
      globals.rx.progress.Fresh ∧
        ∀ incoming ∈ outs.early, incoming.Quiet globals.fd args.freqMin := by
  rw [receive, setRx, State.foldl_deliver_fresh_iff _
    (isStart_prepared ops fftSize hcheck hfirst)]
  obtain ⟨numRanges, stepCount, frequencies, fftSize', window, hprepared⟩ :=
    globals.prepared_frame ops args
  rw [hprepared]
  rfl

theorem independent_of_failure_iff {lib : Library} {next : Globals F}
    {fftSize : FftSize} (hcheck : globals.checkRange args = .ok next)
    (hchecked : (globals.checkArguments ops args).1 = .ok fftSize)
    (hsetUp : ((globals.prepared ops args).setUp args outs).1 = false) :
    Independent ops args outs globals lib ↔
      (outs.Starts → globals.numRanges = 0) := by
  rw [← ranges_iff ops outs hcheck]
  have hevents : (globals.hackrfSweep ops args outs lib).events =
      ((globals.prepared ops args).setUp args outs).2 := by
    rw [hackrfSweep_of_failure hchecked hsetUp]
  have huses := (globals.prepared ops args).setUp_uses args outs
  constructor
  · intro hindependent
    rw [← hevents]
    exact hindependent.ranges
  · intro hranges
    exact {
      ranges := hevents ▸ hranges
      fresh := by
        intro doExit sweepStarted sweepCount hmem
        cases huses _ (hevents ▸ hmem)
      unchanged := by
        intro message hmem
        cases huses _ (hevents ▸ hmem) }

theorem independent_of_success_iff {lib : Library} {next : Globals F}
    {fftSize : FftSize} (hcheck : globals.checkRange args = .ok next)
    (hchecked : (globals.checkArguments ops args).1 = .ok fftSize)
    (hsetUp : ((globals.prepared ops args).setUp args outs).1 = true) :
    Independent ops args outs globals lib ↔
      globals.numRanges = 0 ∧ globals.rx.progress.Fresh ∧
        ∀ incoming ∈ outs.early,
          incoming.Quiet globals.fd args.freqMin := by
  have hstarts := ((setUp_succeeds_iff _ _ _).mp hsetUp).1
  obtain ⟨rest, hstream, hrest⟩ := stream_follows ops.toFloatOps
    ((globals.prepared ops args).settings fftSize) outs lib
    (globals.prepared ops args)
  have hevents : (globals.hackrfSweep ops args outs lib).events = _ :=
    congrArg SweepReturn.events (hackrfSweep_of_success hchecked hsetUp)
  dsimp only at hevents
  rw [hstream] at hevents
  have huses := (globals.prepared ops args).setUp_uses args outs
  constructor
  · intro hindependent
    have hfirst : globals.numRanges = 0 := by
      refine (ranges_iff ops outs hcheck).mp (fun event hmem => ?_) hstarts
      apply hindependent.ranges event
      rw [hevents]
      exact List.mem_append_left _ hmem
    refine ⟨hfirst, (fresh_iff ops outs fftSize hcheck hfirst).mp ?_⟩
    apply hindependent.fresh _ _ _
    rw [hevents]
    exact List.mem_append_right _ List.mem_cons_self
  · rintro ⟨hfirst, hfresh⟩
    exact {
      ranges := by
        intro event hmem
        rw [hevents, List.mem_append, List.mem_cons] at hmem
        rcases hmem with hmem | rfl | hmem
        · exact (ranges_iff ops outs hcheck).mpr (fun _ => hfirst) event hmem
        · intro swept hswept
          simp [Event.sweptRanges] at hswept
        · intro swept hswept
          rw [reading_of_follows readsInitSweep_sweptRanges
            (hrest event hmem)] at hswept
          simp at hswept
      fresh := by
        intro doExit sweepStarted sweepCount hmem
        rw [hevents, List.mem_append, List.mem_cons] at hmem
        rcases hmem with hmem | hmem | hmem
        · cases huses _ hmem
        · rw [Event.enterLoop.injEq] at hmem
          obtain ⟨rfl, rfl, rfl⟩ := hmem
          exact (fresh_iff ops outs fftSize hcheck hfirst).mpr hfresh
        · cases hrest _ hmem
      unchanged := by
        intro message hmem
        rw [hevents, List.mem_append, List.mem_cons] at hmem
        rcases hmem with hmem | hmem | hmem
        · cases huses _ hmem
        · simp at hmem
        · cases hrest _ hmem }

end Globals

theorem independent_iff (ops : SweepOps F) (args : HackrfSweepArgs)
    (outs : SweepOutcomes) (globals : Globals F) (lib : Library) :
    Independent ops args outs globals lib ↔
      KeepsNothing ops args outs globals := by
  unfold KeepsNothing
  cases hcheck : globals.checkRange args with
  | error error => simp [Globals.independent_of_error hcheck]
  | ok next =>
      cases hchecked : (globals.checkArguments ops args).1 with
      | error error =>
          simp [Globals.not_independent_of_error hcheck hchecked]
      | ok fftSize =>
          have hsucceeds :=
            (globals.prepared ops args).setUp_succeeds_iff args outs
          rw [Globals.configures_prepared_iff] at hsucceeds
          cases hsetUp : ((globals.prepared ops args).setUp args outs).1 with
          | false =>
              rw [Globals.independent_of_failure_iff hcheck hchecked hsetUp]
              simp only [hsetUp, Bool.false_eq_true, false_iff, not_and]
                at hsucceeds
              by_cases hstarts : outs.Starts
              · simp [hstarts, hsucceeds hstarts]
              · simp [hstarts]
          | true =>
              rw [Globals.independent_of_success_iff hcheck hchecked hsetUp]
              obtain ⟨hstarts, hconfigures⟩ := hsucceeds.mp hsetUp
              simp [hstarts, hconfigures]

/-! ## Runs -/

theorem Globals.hackrfSweep_numRanges {globals next : Globals F}
    {args : HackrfSweepArgs} (hcheck : globals.checkRange args = .ok next)
    (ops : SweepOps F) (outs : SweepOutcomes) (lib : Library) :
    (globals.hackrfSweep ops args outs lib).globals.numRanges =
      globals.numRanges + 1 := by
  rcases globals.hackrfSweep_globals ops args outs lib with
    ⟨error, herror, hsweep⟩ | ⟨-, rx, fd, -, hsweep⟩
  · rcases globals.checkArguments_cases ops args with
      ⟨error', herror', -⟩ | ⟨range, fftSize, window, -, -, hchecked⟩
    · simp [hcheck] at herror'
    · rw [hsweep, hchecked]
      rfl
  · rw [hsweep]
    exact Globals.prepared_numRanges hcheck ops

namespace Service

def IndependentAlong (ops : SweepOps F) (service : Service F)
    (requests : List Request) : Prop :=
  ∀ before args outs, before ++ [.sweep args outs] <+: requests →
    Independent ops args outs (service.run ops before).globals
      (service.run ops before).library

/-- The calls of a run are independent of their history exactly if each of
them keeps nothing of it. -/
theorem independentAlong_iff (ops : SweepOps F) (service : Service F)
    (requests : List Request) :
    service.IndependentAlong ops requests ↔
      ∀ before args outs, before ++ [.sweep args outs] <+: requests →
        KeepsNothing ops args outs (service.run ops before).globals :=
  forall₃_congr fun _ args outs =>
    imp_congr_right fun _ => independent_iff ops args outs _ _

theorem open_numRanges (ops : SweepOps F) (service : Service F)
    (serialNumber : Bool) (outs : OpenThreadOutcomes) :
    (service.step ops (.open serialNumber outs)).globals.numRanges =
      service.globals.numRanges := by
  obtain ⟨device, hopen⟩ := service.open_globals ops serialNumber outs
  rw [hopen]

theorem sweep_numRanges (ops : SweepOps F) {service : Service F}
    {args : HackrfSweepArgs} {next : Globals F}
    (hcheck : service.globals.checkRange args = .ok next)
    (outs : SweepOutcomes) :
    (service.step ops (.sweep args outs)).globals.numRanges =
      service.globals.numRanges + 1 :=
  Globals.hackrfSweep_numRanges hcheck ops outs service.library

/-- A second sweep passes the range of the first one as well, although it is
given the same arguments and succeeds like the first. -/
theorem independentAlong_fails_twice :
    ¬ (Service.initial ()).IndependentAlong (.forgetful .wrapping)
      [.open false openFirst, .sweep sweepArgs endsAtOnce,
        .open false openFirst, .sweep sweepArgs endsAtOnce] := by
  intro hindependent
  have hsecond := hindependent
    [.open false openFirst, .sweep sweepArgs endsAtOnce, .open false openFirst]
    sweepArgs endsAtOnce List.prefix_rfl
  have hstored : ((Service.initial ()).run (.forgetful .wrapping)
      [.open false openFirst, .sweep sweepArgs endsAtOnce,
        .open false openFirst]).globals.numRanges = 1 := by
    have hopened := (Service.initial ()).open_numRanges
      (.forgetful .wrapping) false openFirst
    have hchecked := Globals.checkRange_eq_ok sweepArgs
      (hopened.trans_lt (by decide)) (by decide) (by decide)
    rw [run, List.foldl_cons, List.foldl_cons, List.foldl_cons, List.foldl_nil,
      open_numRanges, sweep_numRanges _ hchecked, hopened]
    rfl
  rw [independent_iff] at hsecond
  generalize ((Service.initial ()).run (.forgetful .wrapping)
    [.open false openFirst, .sweep sweepArgs endsAtOnce,
      .open false openFirst]).globals = globals at hsecond hstored
  rcases hsecond with ⟨error, herror⟩ | ⟨-, hstarts | ⟨hfirst, -⟩⟩
  · rw [Globals.checkRange_eq_ok _ (hstored.trans_lt (by decide))
      (by decide) (by decide)] at herror
    simp at herror
  · exact hstarts ⟨rfl, rfl, rfl⟩
  · omega

end Service

end HackRF.Sweep
