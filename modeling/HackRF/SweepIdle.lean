import HackRF.SweepCalls

/-!
# The service without a stream

Nothing in the service opens the stream which `rx_callback` writes to.  So in
every run of it each delivered transfer is turned away: no sweep starts, no
block is transformed and no row is written.  The streaming loop finds no bytes
at the end of its first iteration and gives up; a call succeeds only if the
device has stopped, or a signal has come, before that.
-/

namespace HackRF.Sweep

variable {F : Type*}

def Incoming.isSignal : Incoming → Bool
  | .transfer _ _ => false
  | .signal => true

/-- Without a stream only signals get through. -/
theorem foldl_deliver_of_closed (ops : FloatOps F) {settings : Settings F}
    (hclosed : settings.fd = false) (incoming : List Incoming)
    (state : State F) :
    incoming.foldl (Incoming.deliver ops settings) state =
      { state with
        doExit := state.doExit || incoming.any Incoming.isSignal } := by
  induction incoming generalizing state with
  | nil => simp
  | cons arrival rest ih =>
      cases arrival with
      | transfer received time =>
          have hsame : Incoming.deliver ops settings state
              (.transfer received time) = state := by
            simp [Incoming.deliver, State.rxCallback, hclosed]
          rw [List.foldl_cons, hsame, ih]
          simp [Incoming.isSignal]
      | signal =>
          rw [List.foldl_cons, ih]
          simp [Incoming.deliver, Incoming.isSignal]

/-- The state of `rx_callback` before any transfer, but for signals. -/
def State.untouched (zero : F) (doExit : Bool) : State F :=
  { State.initial zero with doExit := doExit }

namespace Globals

variable {zero : F} {ops : FloatOps F} {settings : Settings F}
  {globals : Globals F}

/-- The stream is not open, and no transfer has left a trace. -/
structure Idle (zero : F) (globals : Globals F) : Prop where
  fd : globals.fd = false
  rx : globals.rx = State.untouched zero globals.rx.doExit

theorem Idle.congr {next : Globals F} (hidle : globals.Idle zero)
    (hfd : next.fd = globals.fd) (hrx : next.rx = globals.rx) :
    next.Idle zero :=
  ⟨hfd.trans hidle.fd, by rw [hrx, ← hidle.rx]⟩

theorem receive_of_closed (hclosed : settings.fd = false)
    (incoming : List Incoming) (globals : Globals F) :
    globals.receive ops settings incoming =
      globals.setRx { globals.rx with
        doExit := globals.rx.doExit || incoming.any Incoming.isSignal } := by
  rw [receive, foldl_deliver_of_closed ops hclosed]

theorem Idle.receive (hidle : globals.Idle zero)
    (hclosed : settings.fd = false) (incoming : List Incoming) :
    (globals.receive ops settings incoming).Idle zero := by
  rw [receive_of_closed hclosed]
  refine ⟨hidle.fd, ?_⟩
  simp only [setRx]
  rw [hidle.rx]
  rfl

/-- The loop asks once whether the device streams, and ends. -/
theorem Idle.streamLoop (hidle : globals.Idle zero)
    (hclosed : settings.fd = false) (ended : HackrfError)
    (ticks : List Tick) :
    ((globals.streamLoop ops settings ended ticks).1 = .success ↔
      ticks = [] ∨ globals.rx.doExit = true) ∧
    (globals.streamLoop ops settings ended ticks).2.1.length = 1 ∧
    (globals.streamLoop ops settings ended ticks).2.2.Idle zero := by
  cases ticks with
  | nil => exact ⟨by simp [Globals.streamLoop], rfl, hidle⟩
  | cons tick rest =>
      have hasleep := @Idle.receive F zero ops settings globals hidle hclosed
        tick.asleep
      have hbytes : (globals.receive ops settings tick.asleep).rx.byteCount =
          0 := by
        rw [hasleep.rx]
        rfl
      unfold Globals.streamLoop
      dsimp only
      split_ifs with hexit
      · exact ⟨by simp [hexit], rfl, hidle⟩
      · exact ⟨by simp [hexit], rfl, hasleep⟩

theorem Idle.stream {outs : SweepOutcomes} (hidle : globals.Idle zero)
    (hclosed : settings.fd = false) (lib : Library) :
    ((globals.stream ops settings outs lib).code = .success ↔
      outs.ticks = [] ∨ (globals.receive ops settings
        outs.early).rx.doExit = true) ∧
    (globals.stream ops settings outs lib).globals.Idle zero := by
  have hearly := @Idle.receive F zero ops settings globals hidle hclosed
    outs.early
  obtain ⟨hcode, -, hlooped⟩ :=
    @Idle.streamLoop F zero ops settings _ hearly hclosed outs.ended outs.ticks
  have hlate := @Idle.receive F zero ops settings _ hlooped hclosed outs.late
  exact ⟨hcode, rfl, hlate.rx⟩

/-- What a call that enters the streaming loop says of itself. -/
structure Aborts (outs : SweepOutcomes) (result : SweepReturn F) : Prop where
  entered : ∀ doExit sweepStarted sweepCount,
    .enterLoop doExit sweepStarted sweepCount ∈ result.events →
      sweepStarted = false ∧ sweepCount = 0 ∧
        (result.code = .success ↔ outs.ticks = [] ∨ doExit = true)
  rejected : (∀ doExit sweepStarted sweepCount,
    .enterLoop doExit sweepStarted sweepCount ∉ result.events) →
      result.code = .failure

section Call

variable {doExit sweepStarted : Bool} {sweepCount : UInt64}

theorem enterLoop_notMem_setUp (globals : Globals F) (args : HackrfSweepArgs)
    (outs : SweepOutcomes) :
    .enterLoop doExit sweepStarted sweepCount ∉
      (globals.setUp args outs).2 := by
  intro hmem
  exact globals.setUp_uses args outs _ hmem

theorem enterLoop_notMem_shutDown (globals : Globals F) (outs : SweepOutcomes)
    (lib : Library) :
    .enterLoop doExit sweepStarted sweepCount ∉
      (globals.shutDown outs lib).1 := by
  cases hdevice : globals.device with
  | none => simp [shutDown_of_none hdevice]
  | some handle =>
      obtain ⟨exited, next, hshutDown, -⟩ := shutDown_of_some outs lib hdevice
      simp [hshutDown, call]

theorem enterLoop_mem_stream (ops : FloatOps F) (settings : Settings F)
    (outs : SweepOutcomes) (globals : Globals F) (lib : Library) :
    .enterLoop doExit sweepStarted sweepCount ∈
        (globals.stream ops settings outs lib).events ↔
      doExit = (globals.receive ops settings outs.early).rx.doExit ∧
        sweepStarted =
          (globals.receive ops settings outs.early).rx.sweepStarted ∧
        sweepCount =
          (globals.receive ops settings outs.early).rx.sweepCount := by
  obtain ⟨asked, hevents, hasked⟩ := stream_events ops settings outs lib globals
  have hnotAsked : .enterLoop doExit sweepStarted sweepCount ∉ asked := by
    intro hmem
    obtain ⟨result, hcall⟩ := hasked _ hmem
    cases hcall
  rw [hevents, List.cons_append, List.mem_cons, List.mem_append]
  simp [hnotAsked, globals.enterLoop_notMem_shutDown outs lib]

/-- A call on an idle service leaves it idle, and aborts. -/
theorem Idle.hackrfSweep (hidle : globals.Idle zero) (ops : SweepOps F)
    (args : HackrfSweepArgs) (outs : SweepOutcomes) (lib : Library) :
    Aborts outs (globals.hackrfSweep ops args outs lib) ∧
      (globals.hackrfSweep ops args outs lib).globals.Idle zero := by
  have hsame := globals.prepared_sameSession ops args
  have hprepared : (globals.prepared ops args).Idle zero :=
    hidle.congr hsame.fd hsame.rx
  cases hcheck : (globals.checkArguments ops args).1 with
  | error error =>
      rw [hackrfSweep_of_error hcheck]
      refine ⟨⟨by simp, fun _ => rfl⟩, ?_⟩
      rcases globals.checkArguments_cases ops args with
        ⟨_, -, hchecked⟩ | ⟨range, fftSize, window, -, -, hchecked⟩
      · rwa [hchecked]
      · rw [hchecked]
        exact hidle.congr rfl rfl
  | ok fftSize =>
      have hclosed :
          ((globals.prepared ops args).settings fftSize).fd = false :=
        hprepared.fd
      cases hsetUp : ((globals.prepared ops args).setUp args outs).1 with
      | false =>
          rw [hackrfSweep_of_failure hcheck hsetUp]
          refine ⟨⟨?_, fun _ => rfl⟩, hprepared.receive hclosed outs.late⟩
          intro doExit sweepStarted sweepCount hmem
          exact absurd hmem
            ((globals.prepared ops args).enterLoop_notMem_setUp args outs)
      | true =>
          obtain ⟨hcode, hleft⟩ := @Idle.stream F zero ops.toFloatOps
            ((globals.prepared ops args).settings fftSize) _ outs hprepared
            hclosed lib
          have hearly := @Idle.receive F zero ops.toFloatOps _ _ hprepared
            hclosed outs.early
          rw [hackrfSweep_of_success hcheck hsetUp]
          refine ⟨⟨?_, ?_⟩, hleft⟩
          · intro doExit sweepStarted sweepCount hmem
            rcases List.mem_append.mp hmem with hmem | hmem
            · exact absurd hmem
                ((globals.prepared ops args).enterLoop_notMem_setUp args outs)
            · rw [enterLoop_mem_stream] at hmem
              obtain ⟨rfl, rfl, rfl⟩ := hmem
              refine ⟨?_, ?_, hcode⟩
              · rw [hearly.rx]
                rfl
              · rw [hearly.rx]
                rfl
          · intro hnone
            have hentered := (enterLoop_mem_stream ops.toFloatOps
              ((globals.prepared ops args).settings fftSize) outs
              (globals.prepared ops args) lib).mpr ⟨rfl, rfl, rfl⟩
            exact absurd (List.mem_append_right _ hentered) (hnone _ _ _)

end Call

end Globals

/-! ## Runs -/

namespace Service

variable {zero : F} {service : Service F}

theorem step_idle (hidle : service.globals.Idle zero) (ops : SweepOps F)
    (request : Request) : (service.step ops request).globals.Idle zero := by
  cases request with
  | signal =>
      refine ⟨hidle.fd, ?_⟩
      simp only [step, Globals.setRx]
      rw [hidle.rx]
      rfl
  | «open» serialNumber outs =>
      obtain ⟨device, hopen⟩ := service.open_globals ops serialNumber outs
      rw [hopen]
      exact hidle.congr rfl rfl
  | sweep args outs => exact (hidle.hackrfSweep ops args outs service.library).2

theorem run_idle (hidle : service.globals.Idle zero) (ops : SweepOps F)
    (requests : List Request) : (service.run ops requests).globals.Idle zero := by
  induction requests generalizing service with
  | nil => exact hidle
  | cons request rest ih => exact ih (step_idle hidle ops request)

/-- In every run of the service `rx_callback` stays as it was initialised, but
for signals, whatever transfers it is called with; and a call which enters the
streaming loop succeeds if and only if the device has stopped by then or a
signal has come before. -/
theorem run_transforms_nothing (ops : SweepOps F) (zero : F)
    (requests : List Request) (args : HackrfSweepArgs)
    (outs : SweepOutcomes) :
    let service := (Service.initial zero).run ops requests
    service.globals.rx =
        State.untouched zero service.globals.rx.doExit ∧
      Globals.Aborts outs
        (service.globals.hackrfSweep ops args outs service.library) := by
  intro service
  have hinitial : (Service.initial zero).globals.Idle zero := ⟨rfl, rfl⟩
  have hidle : service.globals.Idle zero := run_idle hinitial ops requests
  exact ⟨hidle.rx, (hidle.hackrfSweep ops args outs service.library).1⟩

end Service

end HackRF.Sweep
