import HackRF.HandleTrace
import HackRF.SweepCalls

/-!
# The session protocol of the sweep service

A sweep may use the device only while it is open, close it once for each time
it was opened, and start reception only with a stream to write to.  The
service keeps `device` after it has closed it and opens no stream at all.  So
the handles are used as they should be exactly if each accepted sweep finds
its device open, and the whole protocol is kept exactly if no sweep is
accepted.
-/

namespace HackRF.Sweep

open HandleTrace

variable {F : Type*}

/-- What a call of `hackrf_sweep`, or the opening of the device, does with the
handle in `device`. -/
def Event.actions : Event → List (Action DeviceHandle)
  | .openBySerial _ (some handle) => [.acquire handle]
  | .call device _ function _ =>
      match function with
      | .setSampleRateManual _ _ => []
      | .setBasebandFilterBandwidth _ => []
      | .close => [.release device]
      | _ => [.use device]
  | _ => []

def handleTrace (log : List Event) : List (Action DeviceHandle) :=
  log.flatMap Event.actions

structure SessionProtocol (log : List Event) : Prop where
  handles : Disciplined [] (handleTrace log)
  closes : ∀ before, before <+: log → ∀ handle,
    (handleTrace before).count (.release (some handle)) ≤
      (handleTrace before).count (.acquire handle)
  stream : ∀ device fd result,
    .call device fd .startRx result ∈ log → fd = true

def Globals.Accepts (ops : SweepOps F) (args : HackrfSweepArgs)
    (globals : Globals F) : Prop :=
  ∃ fftSize, (globals.checkArguments ops args).1 = .ok fftSize

def Service.Live (service : Service F) : Prop :=
  ∃ handle ∈ service.library.handles, service.globals.device = some handle

def Service.SweepsLive (ops : SweepOps F) (service : Service F) :
    Request → Prop
  | .sweep args _ => service.globals.Accepts ops args → service.Live
  | _ => True

/-! ## The trace of a request -/

@[simp] theorem handleTrace_append (first second : List Event) :
    handleTrace (first ++ second) = handleTrace first ++ handleTrace second :=
  List.flatMap_append

@[simp] theorem handleTrace_enterLoop_cons (doExit sweepStarted : Bool)
    (sweepCount : UInt64) (log : List Event) :
    handleTrace (.enterLoop doExit sweepStarted sweepCount :: log) =
      handleTrace log := rfl

theorem handleTrace_of_uses {device : Option DeviceHandle} {fd : Bool}
    {events : List Event} (huses : ∀ event ∈ events, event.Uses device fd) :
    handleTrace events = List.replicate events.length (.use device) := by
  induction events with
  | nil => rfl
  | cons event rest ih =>
      obtain ⟨hevent, hrest⟩ := List.forall_mem_cons.mp huses
      have hactions : event.actions = [.use device] := by
        cases event with
        | call device' fd' function result =>
            obtain ⟨rfl, -, hsweeps⟩ := hevent
            cases function <;> first | rfl | cases hsweeps
        | _ => cases hevent
      rw [handleTrace, List.flatMap_cons, hactions, List.length_cons,
        List.replicate_succ, ← ih hrest]
      rfl

namespace Globals

variable {ops : SweepOps F} {args : HackrfSweepArgs} {outs : SweepOutcomes}
  {globals : Globals F} {lib : Library}

theorem handleTrace_stream (ops : FloatOps F) (settings : Settings F)
    (outs : SweepOutcomes) (globals : Globals F) (lib : Library) :
    ∃ n closing,
      handleTrace (globals.stream ops settings outs lib).events =
          List.replicate n (.use globals.device) ++ closing ∧
        (closing = [] ∧
            (globals.stream ops settings outs lib).library.handles =
              lib.handles ∨
          ∃ handle, globals.device = some handle ∧
            closing = [.release (some handle)] ∧
            (globals.stream ops settings outs lib).library.handles =
              lib.handles.erase handle) := by
  obtain ⟨asked, hevents, hasked⟩ :=
    stream_events ops settings outs lib globals
  have huses : ∀ event ∈ asked, event.Uses globals.device globals.fd := by
    intro event hevent
    obtain ⟨result, rfl⟩ := hasked event hevent
    exact ⟨rfl, rfl, trivial⟩
  have htrace : ∀ closing, handleTrace (.enterLoop
      (globals.receive ops settings outs.early).rx.doExit
      (globals.receive ops settings outs.early).rx.sweepStarted
      (globals.receive ops settings outs.early).rx.sweepCount ::
        asked ++ closing) =
      List.replicate asked.length (.use globals.device) ++
        handleTrace closing := by
    intro closing
    rw [List.cons_append, handleTrace_enterLoop_cons, handleTrace_append,
      handleTrace_of_uses huses]
  rw [hevents, htrace, stream_library]
  cases hdevice : globals.device with
  | none =>
      rw [shutDown_of_none hdevice]
      exact ⟨asked.length, [], rfl, .inl ⟨rfl, rfl⟩⟩
  | some handle =>
      obtain ⟨exited, next, hshutDown, hhandles⟩ :=
        shutDown_of_some outs lib hdevice
      have hclosing : ∀ closed, handleTrace [
          globals.call .stopRx outs.stopRx, globals.call .close closed,
          .exit exited] = [.use globals.device, .release globals.device] :=
        fun _ => rfl
      rw [hshutDown]
      refine ⟨asked.length + 1, [.release (some handle)], ?_,
        .inr ⟨handle, rfl, rfl, hhandles⟩⟩
      rw [hclosing, hdevice, List.replicate_succ', List.append_assoc]
      rfl

/-- An accepted sweep uses the device at least once, and closes it in the end
or not at all. -/
theorem handleTrace_hackrfSweep (haccepts : globals.Accepts ops args)
    (outs : SweepOutcomes) (lib : Library) :
    ∃ n closing,
      handleTrace (globals.hackrfSweep ops args outs lib).events =
          List.replicate (n + 1) (.use globals.device) ++ closing ∧
        (closing = [] ∧
            (globals.hackrfSweep ops args outs lib).library.handles =
              lib.handles ∨
          ∃ handle, globals.device = some handle ∧
            closing = [.release (some handle)] ∧
            (globals.hackrfSweep ops args outs lib).library.handles =
              lib.handles.erase handle) := by
  obtain ⟨fftSize, hcheck⟩ := haccepts
  have hdevice := (globals.prepared_sameSession ops args).device
  have hsetUp := handleTrace_of_uses
    ((globals.prepared ops args).setUp_uses args outs)
  have hpos := List.length_pos_of_mem
    ((globals.prepared ops args).startRx_mem_setUp args outs)
  obtain ⟨n, hn⟩ := Nat.exists_eq_succ_of_ne_zero hpos.ne'
  rw [hn, hdevice] at hsetUp
  cases hsucceeds : ((globals.prepared ops args).setUp args outs).1 with
  | false =>
      rw [hackrfSweep_of_failure hcheck hsucceeds]
      exact ⟨n, [], by rw [hsetUp, List.append_nil], .inl ⟨rfl, rfl⟩⟩
  | true =>
      obtain ⟨k, closing, hstream, hclosing⟩ := handleTrace_stream
        ops.toFloatOps ((globals.prepared ops args).settings fftSize) outs
        (globals.prepared ops args) lib
      rw [hdevice] at hstream hclosing
      rw [hackrfSweep_of_success hcheck hsucceeds]
      refine ⟨n + k, closing, ?_, hclosing⟩
      rw [handleTrace_append, hsetUp, hstream, ← List.append_assoc,
        List.replicate_append_replicate, Nat.succ_add]

theorem startRx_mem_hackrfSweep {fftSize : FftSize}
    (hcheck : (globals.checkArguments ops args).1 = .ok fftSize)
    (outs : SweepOutcomes) (lib : Library) :
    .call globals.device globals.fd .startRx outs.startRx ∈
      (globals.hackrfSweep ops args outs lib).events := by
  have hsame := globals.prepared_sameSession ops args
  have hstart := (globals.prepared ops args).startRx_mem_setUp args outs
  rw [call, hsame.device, hsame.fd] at hstart
  cases hsucceeds : ((globals.prepared ops args).setUp args outs).1 with
  | false =>
      rw [hackrfSweep_of_failure hcheck hsucceeds]
      exact hstart
  | true =>
      rw [hackrfSweep_of_success hcheck hsucceeds]
      exact List.mem_append_left _ hstart

theorem hackrfSweep_of_not_accepts (hrejected : ¬ globals.Accepts ops args)
    (outs : SweepOutcomes) (lib : Library) :
    handleTrace (globals.hackrfSweep ops args outs lib).events = [] ∧
      (globals.hackrfSweep ops args outs lib).library = lib := by
  cases hcheck : (globals.checkArguments ops args).1 with
  | error error =>
      rw [hackrfSweep_of_error hcheck]
      exact ⟨rfl, rfl⟩
  | ok fftSize => exact absurd ⟨fftSize, hcheck⟩ hrejected

theorem handleTrace_hackRFSweepThread (serialNumber : Bool)
    (outs : OpenThreadOutcomes) (globals : Globals F) (lib : Library) :
    EventRun.run step lib.handles (handleTrace
        (globals.hackRFSweepThread serialNumber outs lib).1) =
      some (globals.hackRFSweepThread serialNumber outs lib).2.2.handles := by
  have hinit := lib.hackrfInit_handles outs.libusbInit
  have hopen := (lib.hackrfInit outs.libusbInit).2.hackrfOpenBySerial_followsFrom
    serialNumber outs.found outs.opened
  rw [← hinit]
  unfold hackRFSweepThread
  dsimp only
  rcases hopen with ⟨hnone, hcode, hlib⟩ | ⟨hsome, hcode, hlib⟩
  · split_ifs
    · rfl
    · rw [hnone, hlib]
      rfl
  · split_ifs
    · rfl
    all_goals
      rw [hsome, hlib]
      rfl

end Globals

/-! ## Runs -/

namespace Service

variable {ops : SweepOps F} {service : Service F}

/-- The log is disciplined, and the handles it leaves open are those the
library has handed out. -/
def Accounted (service : Service F) : Prop :=
  EventRun.run HandleTrace.step [] (handleTrace service.log) =
    some service.library.handles

theorem Accounted.append (haccounted : service.Accounted)
    (events : List Event) :
    Disciplined [] (handleTrace (service.log ++ events)) ↔
      Disciplined service.library.handles (handleTrace events) := by
  rw [handleTrace_append]
  exact disciplined_append haccounted

theorem Accounted.run_append (haccounted : service.Accounted)
    (events : List Event) :
    EventRun.run HandleTrace.step [] (handleTrace (service.log ++ events)) =
      EventRun.run HandleTrace.step service.library.handles
        (handleTrace events) := by
  rw [handleTrace_append, EventRun.run_append, haccounted]
  rfl

/-- A request keeps the account if a sweep which is accepted finds the device
open. -/
theorem Accounted.step (haccounted : service.Accounted) {request : Request}
    (hlive : service.SweepsLive ops request) :
    (service.step ops request).Accounted := by
  cases request with
  | signal => exact haccounted
  | «open» serialNumber outs =>
      exact (haccounted.run_append _).trans
        (service.globals.handleTrace_hackRFSweepThread serialNumber outs
          service.library)
  | sweep args outs =>
      apply (haccounted.run_append _).trans
      by_cases haccepts : service.globals.Accepts ops args
      · obtain ⟨handle, hheld, hdevice⟩ := hlive haccepts
        obtain ⟨n, closing, htrace, hclosing⟩ :=
          Globals.handleTrace_hackrfSweep haccepts outs service.library
        rw [htrace, hdevice, EventRun.run_append, run_uses hheld]
        rcases hclosing with ⟨rfl, hhandles⟩ | ⟨closed, hsame, rfl, hhandles⟩
        · exact congrArg some hhandles.symm
        · obtain rfl : handle = closed := Option.some.inj (hdevice.symm.trans hsame)
          simp only [Option.bind_some, EventRun.run_cons, HandleTrace.step, hheld,
            ↓reduceIte, EventRun.run_nil]
          exact congrArg some hhandles.symm
      · obtain ⟨htrace, hlib⟩ := Globals.hackrfSweep_of_not_accepts haccepts outs
          service.library
        rw [htrace]
        exact congrArg (fun lib : Library => some lib.handles) hlib.symm

theorem Accounted.not_disciplined (haccounted : service.Accounted)
    {request : Request} (hdead : ¬ service.SweepsLive ops request) :
    ¬ Disciplined [] (handleTrace (service.step ops request).log) := by
  cases request with
  | signal => exact absurd trivial hdead
  | «open» serialNumber outs => exact absurd trivial hdead
  | sweep args outs =>
      rw [SweepsLive, Classical.not_imp] at hdead
      obtain ⟨haccepts, hdead⟩ := hdead
      intro hdisciplined
      obtain ⟨n, closing, htrace, -⟩ :=
        Globals.handleTrace_hackrfSweep haccepts outs service.library
      have hevents := (haccounted.append _).mp hdisciplined
      rw [htrace, List.replicate_succ, List.cons_append] at hevents
      exact hdead (disciplined_use_cons.mp hevents).1

theorem log_isPrefix (ops : SweepOps F) (service : Service F)
    (requests : List Request) :
    service.log <+: (service.run ops requests).log := by
  induction requests generalizing service with
  | nil => exact List.prefix_rfl
  | cons request rest ih =>
      refine List.IsPrefix.trans ?_ (ih (service.step ops request))
      cases request with
      | signal => exact List.prefix_rfl
      | «open» serialNumber outs => exact List.prefix_append _ _
      | sweep args outs => exact List.prefix_append _ _

/-- The handles are used as they should be exactly if every accepted sweep
finds its device open. -/
theorem Accounted.disciplined_iff (haccounted : service.Accounted)
    (requests : List Request) :
    Disciplined [] (handleTrace (service.run ops requests).log) ↔
      EventRun.Along (fun service request => some (service.step ops request))
        (fun service request _ => service.SweepsLive ops request) service
        requests := by
  induction requests generalizing service with
  | nil => simpa [run] using ⟨_, haccounted⟩
  | cons request rest ih =>
      simp only [EventRun.along_cons, Option.some.injEq, forall_eq']
      constructor
      · intro hdisciplined
        have hlive : service.SweepsLive ops request := by
          by_contra hdead
          obtain ⟨events, hlog⟩ :=
            (service.step ops request).log_isPrefix ops rest
          rw [run, List.foldl_cons, ← run, ← hlog, handleTrace_append]
            at hdisciplined
          exact haccounted.not_disciplined hdead hdisciplined.of_append
        exact ⟨hlive, (ih (haccounted.step hlive)).mp hdisciplined⟩
      · rintro ⟨hlive, hrest⟩
        exact (ih (haccounted.step hlive)).mpr hrest

end Service

/-! ## From the start of the program -/

def Request.InRange : Request → Prop
  | .sweep args _ =>
      args.freqMin < args.freqMax ∧ args.freqMax.toNat ≤ freqMaxMhz
  | _ => False

def Event.StartsRx : Event → Prop
  | .call _ _ .startRx _ => True
  | _ => False

/-- The globals as no accepted sweep has changed them. -/
structure Globals.Untouched (globals : Globals F) : Prop where
  numSamples : globals.numSamples.toNat = samplesPerBlock
  numRanges : globals.numRanges = 0
  fd : globals.fd = false
  amp : globals.amp = false
  antenna : globals.antenna = false
  binaryOutput : globals.binaryOutput = false
  ifftOutput : globals.ifftOutput = false
  fftSize : globals.fftSize = 20

theorem Service.untouched_initial (zero : F) :
    (Service.initial zero).globals.Untouched :=
  ⟨rfl, rfl, rfl, rfl, rfl, rfl, rfl, rfl⟩

theorem Service.accounted_initial (zero : F) :
    (Service.initial zero).Accounted := rfl

theorem Service.initial_not_startsRx (zero : F) :
    ∀ event ∈ (Service.initial zero).log, ¬ event.StartsRx := by
  simp [Service.initial]

namespace Globals.Untouched

variable {globals : Globals F} {args : HackrfSweepArgs}

theorem setRx (huntouched : globals.Untouched) (rx : State F) :
    (globals.setRx rx).Untouched :=
  ⟨huntouched.numSamples, huntouched.numRanges, huntouched.fd, huntouched.amp,
    huntouched.antenna, huntouched.binaryOutput, huntouched.ifftOutput,
    huntouched.fftSize⟩

theorem accepts (huntouched : globals.Untouched) (ops : SweepOps F)
    (hlt : args.freqMin < args.freqMax)
    (hmax : args.freqMax.toNat ≤ freqMaxMhz) :
    globals.Accepts ops args := by
  have hroom : globals.numRanges < maxSweepRanges := by
    rw [huntouched.numRanges]
    decide
  obtain ⟨fftSize, hfftSize, -⟩ :=
    acceptFftSize_eq (show 4 ≤ 20 by decide) (by decide)
  refine ⟨fftSize, ?_⟩
  rw [checkArguments, checkRange_eq_ok args hroom hlt hmax]
  simp [checkOptions, appendRange, huntouched.numSamples, huntouched.numRanges,
    huntouched.amp, huntouched.antenna, huntouched.binaryOutput,
    huntouched.ifftOutput, huntouched.fftSize, hfftSize]

end Globals.Untouched

theorem Globals.hackRFSweepThread_not_startsRx (serialNumber : Bool)
    (outs : OpenThreadOutcomes) (globals : Globals F) (lib : Library) :
    ∀ event ∈ (globals.hackRFSweepThread serialNumber outs lib).1,
      ¬ event.StartsRx := by
  unfold hackRFSweepThread
  dsimp only
  split_ifs <;> simp [Event.StartsRx, call]

namespace Globals

variable {ops : SweepOps F} {args : HackrfSweepArgs} {globals : Globals F}

theorem checkArguments_of_out
    (hout : ¬ (args.freqMin < args.freqMax ∧ args.freqMax.toNat ≤ freqMaxMhz))
    (ops : SweepOps F) (globals : Globals F) :
    ∃ error, globals.checkArguments ops args = (.error error, globals) := by
  cases hcheck : globals.checkRange args with
  | error error => exact ⟨error, by rw [checkArguments, hcheck]⟩
  | ok next =>
      unfold checkRange at hcheck
      split_ifs at hcheck with hfull hempty habove
      exact absurd ⟨UInt32.not_le.mp hempty, Nat.not_lt.mp habove⟩ hout

theorem not_accepts_of_out
    (hout : ¬ (args.freqMin < args.freqMax ∧
      args.freqMax.toNat ≤ freqMaxMhz)) :
    ¬ globals.Accepts ops args := by
  rintro ⟨fftSize, haccepts⟩
  obtain ⟨error, hchecked⟩ := checkArguments_of_out hout ops globals
  simp [hchecked] at haccepts

theorem hackrfSweep_of_out
    (hout : ¬ (args.freqMin < args.freqMax ∧ args.freqMax.toNat ≤ freqMaxMhz))
    (ops : SweepOps F) (outs : SweepOutcomes) (globals : Globals F)
    (lib : Library) :
    ∃ message, globals.hackrfSweep ops args outs lib =
      ⟨.failure, [.rejected message], globals, lib⟩ := by
  obtain ⟨error, hchecked⟩ := checkArguments_of_out hout ops globals
  refine ⟨error.message, ?_⟩
  rw [hackrfSweep_of_error (congrArg Prod.fst hchecked), hchecked]

end Globals

namespace Service

variable {ops : SweepOps F} {service : Service F} {request : Request}

theorem step_sweep_of_out {args : HackrfSweepArgs} {outs : SweepOutcomes}
    (hout : ¬ (Request.sweep args outs).InRange) :
    ∃ message, service.step ops (.sweep args outs) =
      { service with log := service.log ++ [.rejected message] } := by
  obtain ⟨message, hsweep⟩ := Globals.hackrfSweep_of_out hout ops outs
    service.globals service.library
  refine ⟨message, ?_⟩
  rw [step, hsweep]

theorem step_untouched (huntouched : service.globals.Untouched)
    (hout : ¬ request.InRange) :
    (service.step ops request).globals.Untouched := by
  cases request with
  | signal => exact huntouched.setRx _
  | «open» serialNumber outs =>
      obtain ⟨device, hopen⟩ := service.open_globals ops serialNumber outs
      rw [hopen]
      exact ⟨huntouched.numSamples, huntouched.numRanges, huntouched.fd,
        huntouched.amp, huntouched.antenna, huntouched.binaryOutput,
        huntouched.ifftOutput, huntouched.fftSize⟩
  | sweep args outs =>
      obtain ⟨message, hsweep⟩ := @step_sweep_of_out _ ops service args outs hout
      rw [hsweep]
      exact huntouched

theorem step_not_startsRx (hlog : ∀ event ∈ service.log, ¬ event.StartsRx)
    (hout : ¬ request.InRange) :
    ∀ event ∈ (service.step ops request).log, ¬ event.StartsRx := by
  cases request with
  | signal => exact hlog
  | «open» serialNumber outs =>
      exact List.forall_mem_append.mpr ⟨hlog,
        service.globals.hackRFSweepThread_not_startsRx serialNumber outs
          service.library⟩
  | sweep args outs =>
      obtain ⟨message, hsweep⟩ := @step_sweep_of_out _ ops service args outs hout
      rw [hsweep]
      refine List.forall_mem_append.mpr ⟨hlog, ?_⟩
      simp [Event.StartsRx]

theorem run_not_startsRx (ops : SweepOps F)
    (hlog : ∀ event ∈ service.log, ¬ event.StartsRx) {requests : List Request}
    (hout : ∀ request ∈ requests, ¬ request.InRange) :
    ∀ event ∈ (service.run ops requests).log, ¬ event.StartsRx := by
  induction requests generalizing service with
  | nil => exact hlog
  | cons request rest ih =>
      obtain ⟨hhead, hrest⟩ := List.forall_mem_cons.mp hout
      exact ih (step_not_startsRx hlog hhead) hrest

theorem along_sweepsLive {requests : List Request}
    (hout : ∀ request ∈ requests, ¬ request.InRange) :
    EventRun.Along (fun service request => some (service.step ops request))
      (fun service request _ => service.SweepsLive ops request) service
      requests := by
  induction requests generalizing service with
  | nil => trivial
  | cons request rest ih =>
      obtain ⟨hhead, hrest⟩ := List.forall_mem_cons.mp hout
      simp only [EventRun.along_cons, Option.some.injEq, forall_eq']
      refine ⟨?_, ih hrest⟩
      cases request with
      | signal => trivial
      | «open» serialNumber outs => trivial
      | sweep args outs =>
          exact fun haccepts =>
            absurd haccepts (Globals.not_accepts_of_out hhead)

/-- The first sweep with a range that passes the checks starts reception
without a stream. -/
theorem exists_startRx_closed (ops : SweepOps F)
    (huntouched : service.globals.Untouched) {requests : List Request}
    (hin : ∃ request ∈ requests, request.InRange) :
    ∃ device result, .call device false .startRx result ∈
      (service.run ops requests).log := by
  induction requests generalizing service with
  | nil => simp at hin
  | cons request rest ih =>
      by_cases hhead : request.InRange
      · have hlog := (service.step ops request).log_isPrefix ops rest
        cases request with
        | signal => cases hhead
        | «open» serialNumber outs => cases hhead
        | sweep args outs =>
            obtain ⟨fftSize, hcheck⟩ :=
              huntouched.accepts ops hhead.1 hhead.2
            have hstart := Globals.startRx_mem_hackrfSweep hcheck outs service.library
            rw [huntouched.fd] at hstart
            exact ⟨_, _, hlog.subset (List.mem_append_right _ hstart)⟩
      · apply ih (step_untouched huntouched hhead)
        obtain ⟨other, hother, hrange⟩ := hin
        rcases List.mem_cons.mp hother with rfl | hmem
        · exact absurd hrange hhead
        · exact ⟨other, hmem, hrange⟩

end Service

/-- From the start of the program the session protocol is kept exactly if no
sweep of the run has a range that passes the checks. -/
theorem sessionProtocol_iff (ops : SweepOps F) (zero : F)
    (requests : List Request) :
    SessionProtocol ((Service.initial zero).run ops requests).log ↔
      ∀ request ∈ requests, ¬ request.InRange := by
  constructor
  · intro hprotocol request hmem hin
    obtain ⟨device, result, hstart⟩ := Service.exists_startRx_closed ops
      (Service.untouched_initial zero) ⟨request, hmem, hin⟩
    have hopen := hprotocol.stream device false result hstart
    simp at hopen
  · intro hout
    have hstarts := Service.run_not_startsRx ops
      (Service.initial_not_startsRx zero) hout
    have hdisciplined : Disciplined []
        (handleTrace ((Service.initial zero).run ops requests).log) := by
      exact ((Service.accounted_initial zero).disciplined_iff requests).mpr
        (Service.along_sweepsLive hout)
    exact {
      handles := hdisciplined
      closes := fun before hbefore handle => by
        obtain ⟨after, hlog⟩ := hbefore
        rw [← hlog, handleTrace_append] at hdisciplined
        exact hdisciplined.of_append.releases_le handle
      stream := fun device fd result hmem =>
        absurd trivial (hstarts _ hmem) }

/-- The device is opened and a sweep is made of it. -/
theorem sessionProtocol_fails_sweep :
    ¬ SessionProtocol ((Service.initial ()).run (.forgetful .wrapping)
      [.open false openFirst, .sweep sweepArgs endsAtOnce]).log := by
  intro hprotocol
  have hrange : Request.InRange (.sweep sweepArgs endsAtOnce) := by
    unfold Request.InRange
    decide
  obtain ⟨device, result, hstart⟩ := Service.exists_startRx_closed
    (.forgetful .wrapping) (Service.untouched_initial ())
    ⟨.sweep sweepArgs endsAtOnce, .tail _ (.head _), hrange⟩
  have hopen := hprotocol.stream device false result hstart
  simp at hopen

end HackRF.Sweep
