import HackRF.DeviceCalls
import HackRF.SweepBound
import HackRF.SweepProtocol

/-!
# What a failing sweep leaves behind

`hackrf_sweep` starts reception before most of its set-up, and takes the result
of `hackrf_start_rx` together with those of the gains.  None of the returns
that follow stops reception.  Here the calls which a sweep makes are made on a
device, with the transfer thread and the completion handlers at work, and it is
found out after which outcomes a failing sweep can leave the device receiving.
-/

namespace HackRF.Sweep

open Streaming (Device StartOutcomes StopOutcomes)

variable {F : Type*}

/-- The device of the service.  Its callback is always `rx_callback` and its
context always `NULL`. -/
abbrev Radio := Device Unit Unit

/-- What the outside world has in store for the calls which `hackrf_sweep`
makes on its device: the results of the control requests, and what is granted to
the calls which start and stop reception. -/
structure RadioOutcomes where
  vgaGain : HackrfError
  lnaGain : HackrfError
  startRx : StartOutcomes
  initSweep : HackrfError
  ampEnable : HackrfError
  antennaEnable : HackrfError
  stopRx : StopOutcomes
  closeStopRx : StopOutcomes
  closeStopTx : StopOutcomes

/-- The control requests have the results in store. -/
structure SweepOutcomes.Meets (radio : RadioOutcomes) (outs : SweepOutcomes) :
    Prop where
  vgaGain : outs.vgaGain = radio.vgaGain
  lnaGain : outs.lnaGain = radio.lnaGain
  initSweep : outs.initSweep = radio.initSweep
  ampEnable : outs.ampEnable = radio.ampEnable
  antennaEnable : outs.antennaEnable = radio.antennaEnable

/-- The function is called on `dev`, returns `result` and leaves `dev'`. -/
def DeviceCall.Plays (radio : RadioOutcomes) (result : HackrfError)
    (dev dev' : Radio) : DeviceCall → Prop
  | .startRx => dev.Returns (.startRx () () radio.startRx) result dev'
  | .isStreaming => result = dev.hackrfIsStreaming ∧ dev' = dev
  | .stopRx => dev.Returns (.stopRx radio.stopRx) result dev'
  | .close => dev.Closes radio.closeStopRx radio.closeStopTx result dev'
  | _ => dev.Returns (.control result) result dev'

def Event.Plays (radio : RadioOutcomes) (dev dev' : Radio) : Event → Prop
  | .call _ _ function result => function.Plays radio result dev dev'
  | _ => dev' = dev

/-- The events of a call of `hackrf_sweep` take the device from `dev` to
`last`, whatever its transfer thread and its completion handlers do between
them. -/
def Plays (radio : RadioOutcomes) : List Event → Radio → Radio → Prop
  | [], dev, last => dev.Drifts last
  | event :: rest, dev, last =>
      ∃ before after, dev.Drifts before ∧ event.Plays radio before after ∧
        Plays radio rest after last

/-- However a call of `hackrf_sweep` goes, if it fails it leaves the device
silent. -/
def FailsSilently (ops : SweepOps F) (args : HackrfSweepArgs)
    (globals : Globals F) (lib : Library) (radio : RadioOutcomes)
    (dev : Radio) : Prop :=
  ∀ outs : SweepOutcomes, outs.Meets radio →
    ∀ last, Plays radio (globals.hackrfSweep ops args outs lib).events dev
        last →
      (globals.hackrfSweep ops args outs lib).code = .failure → last.Silent

namespace RadioOutcomes

structure SetsUp (radio : RadioOutcomes) (globals : Globals F) : Prop where
  vgaGain : radio.vgaGain = .success
  lnaGain : radio.lnaGain = .success
  startRx : radio.startRx.Succeeds
  initSweep : radio.initSweep = .success
  ampEnable : globals.amp = true → radio.ampEnable = .success
  antennaEnable : globals.antenna = true → radio.antennaEnable = .success

/-- One of the three stop calls of the shutdown succeeds. -/
def Stops (radio : RadioOutcomes) : Prop :=
  radio.stopRx.Succeeds ∨ radio.closeStopRx.Succeeds ∨
    radio.closeStopTx.Succeeds

end RadioOutcomes

/-! ## Playing events -/

section Plays

variable {radio : RadioOutcomes} {dev dev' last : Radio} {event : Event}
  {events rest : List Event}

theorem Plays.of_drifts (hdrifts : dev.Drifts dev')
    (hplays : Plays radio events dev' last) : Plays radio events dev last := by
  cases events with
  | nil => exact hdrifts.trans hplays
  | cons event rest =>
      obtain ⟨before, after, hbefore, hevent, hrest⟩ := hplays
      exact ⟨before, after, hdrifts.trans hbefore, hevent, hrest⟩

theorem plays_append {before after : List Event} :
    Plays radio (before ++ after) dev last ↔
      ∃ middle, Plays radio before dev middle ∧
        Plays radio after middle last := by
  induction before generalizing dev with
  | nil =>
      constructor
      · intro hplays
        exact ⟨dev, Device.Goes.refl _ dev, hplays⟩
      · rintro ⟨middle, hdrifts, hplays⟩
        exact hplays.of_drifts hdrifts
  | cons event rest ih =>
      simp only [List.cons_append, Plays, ih]
      constructor
      · rintro ⟨dev₁, dev₂, hdrifts, hevent, middle, hrest, hafter⟩
        exact ⟨middle, ⟨dev₁, dev₂, hdrifts, hevent, hrest⟩, hafter⟩
      · rintro ⟨middle, ⟨dev₁, dev₂, hdrifts, hevent, hrest⟩, hafter⟩
        exact ⟨dev₁, dev₂, hdrifts, hevent, middle, hrest, hafter⟩

theorem Plays.cons (hevent : event.Plays radio dev dev')
    (hrest : Plays radio rest dev' last) :
    Plays radio (event :: rest) dev last :=
  ⟨dev, dev', Device.Goes.refl _ dev, hevent, hrest⟩

theorem DeviceCall.Plays.threadInvariant {function : DeviceCall}
    {result : HackrfError} (hplays : function.Plays radio result dev dev')
    (hfits : dev.ThreadInvariant) : dev'.ThreadInvariant := by
  cases function with
  | isStreaming => exact hplays.2 ▸ hfits
  | close => exact Device.Closes.threadInvariant hplays hfits
  | _ => exact Device.Returns.threadInvariant hplays hfits

theorem Plays.threadInvariant (hplays : Plays radio events dev last)
    (hfits : dev.ThreadInvariant) : last.ThreadInvariant := by
  induction events generalizing dev with
  | nil => exact Device.Drifts.threadInvariant hplays hfits
  | cons event rest ih =>
      obtain ⟨before, after, hdrifts, hevent, hrest⟩ := hplays
      have hbefore := hdrifts.threadInvariant hfits
      apply ih hrest
      cases event with
      | call device fd function result =>
          exact DeviceCall.Plays.threadInvariant hevent hbefore
      | _ => exact hevent ▸ hbefore

end Plays

/-! ## The set-up -/

def DeviceCall.Controls : DeviceCall → Prop
  | .startRx => False
  | .isStreaming => False
  | .stopRx => False
  | .close => False
  | _ => True

theorem DeviceCall.Controls.plays_iff {function : DeviceCall}
    (hcontrols : function.Controls) {radio : RadioOutcomes}
    {result : HackrfError} {dev dev' : Radio} :
    function.Plays radio result dev dev' ↔
      dev.Returns (.control result) result dev' := by
  cases function <;> first | rfl | cases hcontrols

theorem DeviceCall.Enables.controls {function : DeviceCall}
    (henables : function.Enables) : function.Controls := by
  cases function <;> trivial

namespace Globals

variable {globals : Globals F} {args : HackrfSweepArgs} {outs : SweepOutcomes}

theorem setUp_events (globals : Globals F) (args : HackrfSweepArgs)
    (outs : SweepOutcomes) :
    ∃ rest, (globals.setUp args outs).2 =
        globals.call (.setVgaGain args.vgaGain) outs.vgaGain ::
        globals.call (.setLnaGain args.lnaGain) outs.lnaGain ::
        globals.call .startRx outs.startRx :: rest ∧
      (∀ event ∈ rest, ∃ function result,
        event = globals.call function result ∧ function.Controls) ∧
      (¬ outs.Starts → rest = []) := by
  by_cases hstarts : outs.Starts
  · obtain ⟨enables, hevents, henables, -⟩ :=
      globals.setUp_of_starts args hstarts
    refine ⟨globals.call globals.initSweepCall outs.initSweep :: enables,
      hevents, ?_, absurd hstarts⟩
    refine List.forall_mem_cons.mpr ⟨⟨_, _, rfl, trivial⟩, ?_⟩
    intro event hevent
    obtain ⟨function, result, heq, hfunction⟩ := henables event hevent
    exact ⟨function, result, heq, hfunction.controls⟩
  · exact ⟨[], by rw [setUp_of_not_starts hstarts], by simp, fun _ => rfl⟩

end Globals

section Quiet

variable {radio : RadioOutcomes} {dev last : Radio} {globals : Globals F}
  {rest : List Event}

theorem Plays.control_of_quiet {function : DeviceCall} {result : HackrfError}
    (hplays : Plays radio (globals.call function result :: rest) dev last)
    (hcontrols : function.Controls) (hquiet : dev.Quiet) :
    ∃ after, after.Quiet ∧ after.mode = dev.mode ∧
      Plays radio rest after last := by
  obtain ⟨before, after, hdrifts, hevent, hrest⟩ := hplays
  obtain rfl := hdrifts.eq_of_quiet hquiet
  have hreturns := hcontrols.plays_iff.mp hevent
  obtain ⟨-, hafter, hmode⟩ := hquiet.returns_control hreturns
  exact ⟨after, hafter, hmode, hrest⟩

theorem Plays.startRx_of_quiet {args : HackrfSweepArgs} {outs : SweepOutcomes}
    (hplays : Plays radio ((globals.setUp args outs).2 ++ rest) dev last)
    (hquiet : dev.Quiet) :
    ∃ before after : Radio, before.Quiet ∧ before.mode = dev.mode ∧
      before.Returns (.startRx () () radio.startRx) outs.startRx after ∧
      (¬ outs.Starts → Plays radio rest after last) := by
  obtain ⟨controls, hevents, -, hstops⟩ := globals.setUp_events args outs
  rw [hevents] at hplays
  have hvga : (DeviceCall.setVgaGain args.vgaGain).Controls := trivial
  have hlna : (DeviceCall.setLnaGain args.lnaGain).Controls := trivial
  obtain ⟨dev₁, hquiet₁, hmode₁, hplays⟩ := hplays.control_of_quiet hvga hquiet
  obtain ⟨dev₂, hquiet₂, hmode₂, hplays⟩ := hplays.control_of_quiet hlna hquiet₁
  obtain ⟨before, after, hdrifts, hevent, hrest⟩ := hplays
  obtain rfl := hdrifts.eq_of_quiet hquiet₂
  refine ⟨before, after, hquiet₂, hmode₂.trans hmode₁, hevent, ?_⟩
  intro hstarts
  rw [hstops hstarts] at hrest
  exact hrest

end Quiet

/-! ## Failing with the device silent -/

section Silent

variable {ops : SweepOps F} {args : HackrfSweepArgs} {globals : Globals F}
  {lib : Library} {radio : RadioOutcomes} {outs : SweepOutcomes}
  {dev last : Radio}

theorem failsSilently_of_not_accepts (hidle : dev.Idle)
    (hrejected : ¬ globals.Accepts ops args) :
    FailsSilently ops args globals lib radio dev := by
  intro outs _ last hplays _
  cases hcheck : (globals.checkArguments ops args).1 with
  | ok fftSize => exact absurd ⟨fftSize, hcheck⟩ hrejected
  | error error =>
      rw [Globals.hackrfSweep_of_error hcheck] at hplays
      obtain ⟨before, after, hbefore, rfl, hafter⟩ := hplays
      obtain rfl := hbefore.eq_of_quiet hidle.quiet
      obtain rfl := Device.Drifts.eq_of_quiet hafter hidle.quiet
      exact hidle.quiet.silent hidle.mode

theorem Globals.Accepts.events (haccepts : globals.Accepts ops args)
    (outs : SweepOutcomes) (lib : Library) :
    ∃ rest, (globals.hackrfSweep ops args outs lib).events =
        ((globals.prepared ops args).setUp args outs).2 ++ rest ∧
      (¬ outs.Starts → rest = []) := by
  obtain ⟨fftSize, hcheck⟩ := haccepts
  cases hsetUp : ((globals.prepared ops args).setUp args outs).1 with
  | false =>
      rw [hackrfSweep_of_failure hcheck hsetUp]
      exact ⟨[], (List.append_nil _).symm, fun _ => rfl⟩
  | true =>
      rw [hackrfSweep_of_success hcheck hsetUp]
      have hstarts := (setUp_succeeds_iff _ args outs).mp hsetUp
      exact ⟨_, rfl, absurd hstarts.1⟩

/-- If the mode request of the start call is refused, the device is left as it
was. -/
theorem failsSilently_of_mode_refused (hidle : dev.Idle)
    (haccepts : globals.Accepts ops args) (hmode : radio.startRx.mode = false) :
    FailsSilently ops args globals lib radio dev := by
  intro outs _ last hplays _
  obtain ⟨rest, hevents, hstops⟩ := haccepts.events outs lib
  rw [hevents] at hplays
  obtain ⟨before, after, hbefore, hkept, hreturns, hrest⟩ :=
    hplays.startRx_of_quiet hidle.quiet
  obtain ⟨hresult, hafter, hkept'⟩ :=
    hbefore.returns_startRx_refused hmode hreturns
  have hfails : ¬ outs.Starts := by
    rintro ⟨-, -, hstart⟩
    simp [hresult] at hstart
  have hdrifts := hrest hfails
  rw [hstops hfails] at hdrifts
  obtain rfl := Device.Drifts.eq_of_quiet hdrifts hafter
  exact hafter.silent (hkept'.trans hkept ▸ hidle.mode)

theorem SweepOutcomes.Meets.setUp_succeeds_iff (hmeets : outs.Meets radio)
    (ops : SweepOps F) (args : HackrfSweepArgs) (globals : Globals F) :
    ((globals.prepared ops args).setUp args outs).1 = true ↔
      radio.vgaGain = .success ∧ radio.lnaGain = .success ∧
        outs.startRx = .success ∧ radio.initSweep = .success ∧
          (globals.amp = true → radio.ampEnable = .success) ∧
            (globals.antenna = true → radio.antennaEnable = .success) := by
  have hsame := globals.prepared_sameSession ops args
  rw [Globals.setUp_succeeds_iff, Starts, Configures, hsame.amp, hsame.antenna,
    hmeets.vgaGain, hmeets.lnaGain, hmeets.initSweep, hmeets.ampEnable,
    hmeets.antennaEnable]
  tauto

theorem RadioOutcomes.SetsUp.succeeds (hsetsUp : radio.SetsUp globals)
    (hidle : dev.Idle) (haccepts : globals.Accepts ops args)
    (hmeets : outs.Meets radio)
    (hplays : Plays radio (globals.hackrfSweep ops args outs lib).events dev
      last) :
    ((globals.prepared ops args).setUp args outs).1 = true := by
  obtain ⟨rest, hevents, -⟩ := haccepts.events outs lib
  rw [hevents] at hplays
  obtain ⟨before, after, hbefore, -, hreturns, -⟩ :=
    hplays.startRx_of_quiet hidle.quiet
  have hstart := hbefore.returns_startRx hsetsUp.startRx hreturns
  exact (hmeets.setUp_succeeds_iff ops args globals).mpr
    ⟨hsetsUp.vgaGain, hsetsUp.lnaGain, hstart, hsetsUp.initSweep,
      hsetsUp.ampEnable, hsetsUp.antennaEnable⟩

theorem Incoming.deliver_doExit (ops : FloatOps F) (settings : Settings F)
    {state : State F} (hexit : state.doExit = true) (incoming : Incoming) :
    (incoming.deliver ops settings state).doExit = true := by
  cases incoming with
  | signal => rfl
  | transfer received time =>
      exact State.rxCallbacks_invariant ops settings
        (fun state => state.doExit = true)
        (fun _ block hstate =>
          (State.blockStep_transformed_of_doExit ops settings hstate block).1)
        (fun _ _ hstate => hstate) hexit [(received, time)]

theorem Globals.receive_doExit (ops : FloatOps F) (settings : Settings F)
    (hexit : globals.rx.doExit = true) (incoming : List Incoming) :
    (globals.receive ops settings incoming).rx.doExit = true := by
  unfold receive
  induction incoming generalizing globals with
  | nil => exact hexit
  | cons first rest ih =>
      exact @ih (globals.setRx (first.deliver ops settings globals.rx))
        (Incoming.deliver_doExit ops settings hexit first)

/-- With `do_exit` set the streaming loop ends before it looks for data. -/
theorem Globals.stream_code_of_doExit (ops : FloatOps F)
    (settings : Settings F) (hexit : globals.rx.doExit = true)
    (outs : SweepOutcomes) (lib : Library) :
    (globals.stream ops settings outs lib).code = .success := by
  have hstill := receive_doExit ops settings hexit outs.early
  unfold stream
  dsimp only
  cases outs.ticks with
  | nil => rfl
  | cons tick rest => rw [streamLoop, if_pos hstill]

theorem Plays.silent_of_stops {device : Option DeviceHandle} {fd : Bool}
    {stopped closed exited : HackrfError}
    (hplays : Plays radio [.call device fd .stopRx stopped,
      .call device fd .close closed, .exit exited] dev last)
    (hfits : dev.ThreadInvariant) (hstops : radio.Stops) : last.Silent := by
  obtain ⟨dev₁, dev₂, hdrifts₁, hstop, hrest⟩ := hplays
  obtain ⟨dev₃, dev₄, hdrifts₃, hclose, hrest⟩ := hrest
  obtain ⟨dev₅, _, hdrifts₅, rfl, hdrifts₆⟩ := hrest
  have hfits₁ := hdrifts₁.threadInvariant hfits
  have hfits₂ := Device.Returns.threadInvariant hstop hfits₁
  have hfits₃ := hdrifts₃.threadInvariant hfits₂
  have hdown₃ : radio.stopRx.Succeeds → dev₃.Down := fun hall =>
    hdrifts₃.frame.down
      (Device.Returns.down_of_stopRx hstop hfits₁ (.inr hall))
  obtain ⟨hdown₄, hclosed⟩ := Device.Closes.down hclose hfits₃
    (hstops.imp_left hdown₃)
  have hframe := Device.Drifts.frame (Device.Goes.trans hdrifts₅ hdrifts₆)
  obtain ⟨hthread, -, hmode⟩ := hframe.down hdown₄
  refine ⟨.inl hthread, fun hopen => ?_, hmode⟩
  simp [hframe.usbOpen, hclosed] at hopen

/-- If the set-up is bound to succeed, the call fails only in the streaming
loop, and then it shuts the device down. -/
theorem failsSilently_of_setsUp {handle : DeviceHandle}
    (hdevice : globals.device = some handle) (hidle : dev.Idle)
    (haccepts : globals.Accepts ops args) (hsetsUp : radio.SetsUp globals)
    (hstops : globals.rx.doExit = true ∨ radio.Stops) :
    FailsSilently ops args globals lib radio dev := by
  intro outs hmeets last hplays hcode
  have hsetUp := hsetsUp.succeeds hidle haccepts hmeets hplays
  obtain ⟨fftSize, hcheck⟩ := haccepts
  rw [Globals.hackrfSweep_of_success hcheck hsetUp] at hplays hcode
  rcases hstops with hexit | hstops
  · have hsuccess := Globals.stream_code_of_doExit ops.toFloatOps
      ((globals.prepared ops args).settings fftSize)
      ((globals.prepared_sameSession ops args).rx ▸ hexit) outs lib
    simp [hsuccess] at hcode
  · obtain ⟨asked, hevents, -⟩ := Globals.stream_events ops.toFloatOps
      ((globals.prepared ops args).settings fftSize) outs lib
      (globals.prepared ops args)
    obtain ⟨exited, next, hshutDown, -⟩ :=
      Globals.shutDown_of_some outs lib
        ((globals.prepared_sameSession ops args).device.trans hdevice)
    rw [hevents, hshutDown, ← List.append_assoc, plays_append] at hplays
    obtain ⟨middle, hbefore, hafter⟩ := hplays
    have hfits := hbefore.threadInvariant
      (hidle.quiet.threadInvariant hidle.call)
    exact Plays.silent_of_stops hafter hfits hstops

end Silent

/-! ## Failing with the device receiving -/

/-- The results of a call which nothing interferes with and to which nothing
arrives. -/
def RadioOutcomes.results (radio : RadioOutcomes) (startRx : HackrfError) :
    SweepOutcomes :=
  { endsAtOnce with
    vgaGain := radio.vgaGain
    lnaGain := radio.lnaGain
    startRx := startRx
    initSweep := radio.initSweep
    ampEnable := radio.ampEnable
    antennaEnable := radio.antennaEnable
    ticks := [⟨[], []⟩, ⟨[], []⟩]
    finalStreaming := .true
    stopRx := radio.stopRx.refusal
    closeStopRx := radio.closeStopRx.refusal
    closeStopTx := radio.closeStopTx.refusal }

theorem RadioOutcomes.results_meets (radio : RadioOutcomes)
    (startRx : HackrfError) : (radio.results startRx).Meets radio :=
  ⟨rfl, rfl, rfl, rfl, rfl⟩

section Receiving

variable {ops : SweepOps F} {args : HackrfSweepArgs} {globals : Globals F}
  {lib : Library} {radio : RadioOutcomes} {dev last : Radio}
  {rest : List Event}

theorem plays_control (hidle : dev.call = .idle) {function : DeviceCall}
    (hcontrols : function.Controls) (result : HackrfError)
    (hrest : Plays radio rest ((dev.goto (.control result)).finish result)
      last) :
    Plays radio (globals.call function result :: rest) dev last :=
  .cons (hcontrols.plays_iff.mpr (Device.returns_control hidle result)) hrest

theorem exists_plays_controls {events : List Event}
    (hcontrols : ∀ event ∈ events, ∃ function result,
      event = globals.call function result ∧ function.Controls)
    (hidle : dev.call = .idle) :
    ∃ last, Plays radio events dev last ∧ last.call = .idle ∧
      last.mode = dev.mode ∧
      last.hackrfIsStreaming = dev.hackrfIsStreaming ∧
      last.transferThread = dev.transferThread := by
  induction events generalizing dev with
  | nil => exact ⟨dev, Device.Goes.refl _ dev, hidle, rfl, rfl, rfl⟩
  | cons event rest ih =>
      obtain ⟨⟨function, result, rfl, hfunction⟩, hrest⟩ :=
        List.forall_mem_cons.mp hcontrols
      obtain ⟨last, hplays, hlast⟩ :=
        @ih ((dev.goto (.control result)).finish result) hrest rfl
      exact ⟨last, plays_control hidle hfunction result hplays, hlast⟩

/-- Whatever the requests of the set-up return, the device receives after it if
the mode request of the start call is granted. -/
theorem exists_plays_setUp (hidle : dev.Idle)
    (hmode : radio.startRx.mode = true) :
    ∃ startRx, (startRx = .success ↔ radio.startRx.Succeeds) ∧
      ∀ (globals : Globals F) (args : HackrfSweepArgs),
        ∃ last, Plays radio (globals.setUp args (radio.results startRx)).2 dev
            last ∧ last.call = .idle ∧ last.mode = some .receive ∧
          (startRx = .success → last.hackrfIsStreaming = .true ∧
            last.transferThread = .atTest) := by
  have hquiet := (((hidle.quiet.goto (.control radio.vgaGain)).finish
    radio.vgaGain).goto (.control radio.lnaGain)).finish radio.lnaGain
  generalize hready : (((dev.goto (.control radio.vgaGain)).finish
    radio.vgaGain).goto (.control radio.lnaGain)).finish radio.lnaGain =
      ready at hquiet
  have hcall : ready.call = .idle := hready ▸ rfl
  obtain ⟨hreceive, hstarted⟩ := Device.hackrfStartRx_mode hmode () () ready
  refine ⟨(ready.hackrfStartRx () () radio.startRx).1,
    hquiet.hackrfStartRx_success_iff () () radio.startRx, ?_⟩
  intro globals args
  obtain ⟨rest, hevents, hcontrols, -⟩ := globals.setUp_events args
    (radio.results (ready.hackrfStartRx () () radio.startRx).1)
  obtain ⟨last, hplays, hlast, hmode', hstreaming, hthread⟩ :=
    @exists_plays_controls F globals radio
      ((ready.hackrfStartRx () () radio.startRx).2.finish
        (ready.hackrfStartRx () () radio.startRx).1) rest hcontrols rfl
  have hvga : (DeviceCall.setVgaGain args.vgaGain).Controls := trivial
  have hlna : (DeviceCall.setLnaGain args.lnaGain).Controls := trivial
  refine ⟨last, ?_, hlast, hmode'.trans hreceive, fun hsuccess => ?_⟩
  · rw [hevents]
    apply plays_control hidle.call hvga radio.vgaGain
    apply plays_control rfl hlna radio.lnaGain
    rw [hready]
    exact .cons (Device.returns_startRx hcall () () radio.startRx) hplays
  · obtain ⟨hasked, hready⟩ := hstarted hsuccess
    exact ⟨hstreaming.trans hasked, hthread.trans hready⟩

/-- If a call of the set-up is bound to fail although the mode request of the
start call is granted, the device is left receiving. -/
theorem not_failsSilently_of_not_setsUp (hidle : dev.Idle)
    (haccepts : globals.Accepts ops args) (hmode : radio.startRx.mode = true)
    (hfails : ¬ radio.SetsUp globals) :
    ¬ FailsSilently ops args globals lib radio dev := by
  intro hsilent
  obtain ⟨startRx, hstart, hplays⟩ := @exists_plays_setUp F radio dev hidle hmode
  obtain ⟨last, hplays, -, hreceive, -⟩ := hplays (globals.prepared ops args) args
  obtain ⟨fftSize, hcheck⟩ := haccepts
  have hmeets := radio.results_meets startRx
  have hsetUp : ((globals.prepared ops args).setUp args
      (radio.results startRx)).1 = false := by
    rw [← Bool.not_eq_true, hmeets.setUp_succeeds_iff]
    rintro ⟨hvga, hlna, hsuccess, hinit, hamp, hantenna⟩
    exact hfails ⟨hvga, hlna, hstart.mp hsuccess, hinit, hamp, hantenna⟩
  have hlast := hsilent (radio.results startRx) hmeets last
  rw [Globals.hackrfSweep_of_failure hcheck hsetUp] at hlast
  exact (hlast hplays rfl).mode hreceive

theorem Globals.receive_nil (ops : FloatOps F) (settings : Settings F)
    (globals : Globals F) : globals.receive ops settings [] = globals := rfl

/-- If nothing arrives, the streaming loop gives up in its second iteration at
the latest. -/
theorem Globals.streamLoop_silent (ops : FloatOps F) (settings : Settings F)
    (hexit : globals.rx.doExit = false) (ended : HackrfError) :
    ∃ n rx, globals.streamLoop ops settings ended [⟨[], []⟩, ⟨[], []⟩] =
      (.failure, List.replicate n (globals.call .isStreaming .true),
        globals.setRx rx) := by
  by_cases hbytes : globals.rx.byteCount = 0
  · refine ⟨1, globals.rx, ?_⟩
    rw [streamLoop, hexit, receive_nil, if_neg Bool.false_ne_true,
      if_pos hbytes]
    rfl
  · refine ⟨2, { globals.rx with byteCount := 0 }, ?_⟩
    have hreset : globals.resetByteCount.rx.doExit = false := hexit
    rw [streamLoop, hexit, receive_nil, if_neg Bool.false_ne_true,
      if_neg hbytes, receive_nil, streamLoop, hreset, receive_nil,
      if_neg Bool.false_ne_true]
    rfl

theorem Globals.stream_results (ops : FloatOps F) (settings : Settings F)
    (hexit : globals.rx.doExit = false) (startRx : HackrfError)
    (lib : Library) :
    (globals.stream ops settings (radio.results startRx) lib).code =
        .failure ∧
      ∃ n, (globals.stream ops settings (radio.results startRx) lib).events =
        .enterLoop globals.rx.doExit globals.rx.sweepStarted
            globals.rx.sweepCount ::
          (List.replicate n (globals.call .isStreaming .true) ++
            (globals.shutDown (radio.results startRx) lib).1) := by
  obtain ⟨n, rx, hloop⟩ := streamLoop_silent ops settings hexit .streamingStopped
  unfold stream RadioOutcomes.results endsAtOnce
  simp only [receive_nil, hloop, shutDown_setRx, call_setRx, true_and]
  refine ⟨n + 1, ?_⟩
  rw [List.replicate_succ', List.append_assoc]
  rfl

theorem Plays.replicate_isStreaming (n : ℕ)
    (hstreaming : dev.hackrfIsStreaming = .true)
    (hrest : Plays radio rest dev last) :
    Plays radio
      (List.replicate n (globals.call .isStreaming .true) ++ rest) dev last := by
  induction n with
  | zero => exact hrest
  | succ n ih => exact .cons ⟨hstreaming.symm, rfl⟩ ih

/-- If none of the stop calls succeeds, neither does the shutdown: the transfer
thread of the device outlives it. -/
theorem not_failsSilently_of_not_stops {handle : DeviceHandle}
    (hdevice : globals.device = some handle) (hidle : dev.Idle)
    (haccepts : globals.Accepts ops args) (hsetsUp : radio.SetsUp globals)
    (hexit : globals.rx.doExit = false) (hstops : ¬ radio.Stops) :
    ¬ FailsSilently ops args globals lib radio dev := by
  intro hsilent
  have hmode := hsetsUp.startRx.mode
  obtain ⟨startRx, hstart, hplays⟩ := @exists_plays_setUp F radio dev hidle hmode
  obtain ⟨streaming, hplays, hcall, -, hasked⟩ :=
    hplays (globals.prepared ops args) args
  have hsuccess := hstart.mpr hsetsUp.startRx
  obtain ⟨hasked, hthread⟩ := hasked hsuccess
  have hstarted := (Device.flags_of_hackrfIsStreaming hasked).1
  -- no stop call is granted all its requests
  rw [RadioOutcomes.Stops, not_or, not_or] at hstops
  obtain ⟨hstop, hcloseRx, hcloseTx⟩ := hstops
  obtain ⟨stopped, hstopped, hstill, hthread₁⟩ :=
    Device.returns_stopRx_refused hcall hstarted hstop
  obtain ⟨last, hclosed, hthread₂⟩ :=
    Device.closes_refused hstopped.2.2.1 hstill hcloseRx hcloseTx
  obtain ⟨fftSize, hcheck⟩ := haccepts
  have hmeets := radio.results_meets startRx
  have hsetUp := (hmeets.setUp_succeeds_iff ops args globals).mpr
    ⟨hsetsUp.vgaGain, hsetsUp.lnaGain, hsuccess, hsetsUp.initSweep,
      hsetsUp.ampEnable, hsetsUp.antennaEnable⟩
  have hexit' : (globals.prepared ops args).rx.doExit = false :=
    (globals.prepared_sameSession ops args).rx ▸ hexit
  obtain ⟨hcode, n, hevents⟩ := Globals.stream_results ops.toFloatOps
    ((globals.prepared ops args).settings fftSize) hexit' startRx lib
  obtain ⟨exited, next, hshutDown, -⟩ :=
    Globals.shutDown_of_some (radio.results startRx) lib
      ((globals.prepared_sameSession ops args).device.trans hdevice)
  have hlast := hsilent (radio.results startRx) hmeets last
  rw [Globals.hackrfSweep_of_success hcheck hsetUp, hevents, hshutDown] at hlast
  refine absurd (hlast (plays_append.mpr ⟨streaming, hplays, ?_⟩)
    hcode).thread ?_
  · refine .cons rfl (Plays.replicate_isStreaming n hasked ?_)
    exact .cons hstopped (.cons hclosed (.cons rfl (Device.Goes.refl _ last)))
  · simp [hthread₂, hthread₁, hthread]

end Receiving

/-- A failing sweep leaves an idle device silent, whatever happens on the way,
exactly if the call is rejected, or the mode request of `hackrf_start_rx` is
refused, or the whole set-up succeeds and then `do_exit` is set already or one
of the stop calls succeeds. -/
theorem failsSilently_iff (ops : SweepOps F) (args : HackrfSweepArgs)
    (globals : Globals F) (lib : Library) (radio : RadioOutcomes)
    {handle : DeviceHandle} (hdevice : globals.device = some handle)
    {dev : Radio} (hidle : dev.Idle) :
    FailsSilently ops args globals lib radio dev ↔
      ¬ globals.Accepts ops args ∨ radio.startRx.mode = false ∨
        radio.SetsUp globals ∧ (globals.rx.doExit = true ∨ radio.Stops) := by
  by_cases haccepts : globals.Accepts ops args
  · cases hmode : radio.startRx.mode with
    | false =>
        exact iff_of_true (failsSilently_of_mode_refused hidle haccepts hmode)
          (.inr (.inl rfl))
    | true =>
        by_cases hsetsUp : radio.SetsUp globals
        · by_cases hstops : globals.rx.doExit = true ∨ radio.Stops
          · exact iff_of_true
              (failsSilently_of_setsUp hdevice hidle haccepts hsetsUp hstops)
              (.inr (.inr ⟨hsetsUp, hstops⟩))
          · obtain ⟨hexit, hnever⟩ := not_or.mp hstops
            refine iff_of_false (not_failsSilently_of_not_stops hdevice hidle
              haccepts hsetsUp (by simpa using hexit) hnever) ?_
            simp [haccepts, hstops]
        · refine iff_of_false (not_failsSilently_of_not_setsUp hidle haccepts
            hmode hsetsUp) ?_
          simp [haccepts, hsetsUp]
  · exact iff_of_true (failsSilently_of_not_accepts hidle haccepts)
      (.inl haccepts)

def RadioOutcomes.granted : RadioOutcomes where
  vgaGain := .success
  lnaGain := .success
  startRx := ⟨true, fun _ => true, true⟩
  initSweep := .success
  ampEnable := .success
  antennaEnable := .success
  stopRx := ⟨true, true⟩
  closeStopRx := ⟨true, true⟩
  closeStopTx := ⟨true, true⟩

/-- The globals of the first sweep after the device has been opened. -/
def Globals.opened : Globals Unit :=
  { Globals.initial () with device := some 0 }

theorem failsSilently_granted :
    FailsSilently (.forgetful .wrapping) sweepArgs Globals.opened .initial
      .granted Device.fresh :=
  (failsSilently_iff _ _ _ _ _ (rfl : Globals.opened.device = some 0)
    Device.idle_fresh).mpr
      (.inr (.inr ⟨⟨rfl, rfl, ⟨rfl, fun _ => rfl, rfl⟩, rfl, fun _ => rfl,
        fun _ => rfl⟩, .inr (.inl ⟨rfl, rfl⟩)⟩))

/-- The VGA gain is not set and everything else succeeds: the call returns with
the device receiving. -/
theorem failsSilently_fails_vgaGain :
    ¬ FailsSilently (.forgetful .wrapping) sweepArgs Globals.opened .initial
      { RadioOutcomes.granted with vgaGain := .invalidParam } Device.fresh := by
  have huntouched : Globals.opened.Untouched :=
    ⟨rfl, rfl, rfl, rfl, rfl, rfl, rfl, rfl⟩
  have haccepts : Globals.opened.Accepts (.forgetful .wrapping) sweepArgs :=
    huntouched.accepts _ (by decide) (by decide)
  apply not_failsSilently_of_not_setsUp Device.idle_fresh haccepts rfl
  intro hsetsUp
  exact absurd hsetsUp.vgaGain (by decide)

end HackRF.Sweep
