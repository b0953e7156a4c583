import HackRF.CloseJoin
import HackRF.StreamingCoverage

/-!
# The end of a transfer thread

`transfer_threadproc` looks at two flags before each wait for events.  Only a
start call past its busy check sets them so that the loop goes on.  Until the
next such call, a device for which `hackrf_is_streaming` no longer returns
`HACKRF_TRUE` stays so, and its transfer thread has at most two steps left:
to return from the wait it is in, and to leave the loop.
-/

namespace HackRF.Streaming

variable {D Callback Ctx : Type*}

/-- The steps left to a transfer thread which finds the condition of its loop
false. -/
def ThreadState.stepsLeft : ThreadState → ℕ
  | .handlingEvents => 2
  | .atTest => 1
  | .absent => 0
  | .exited => 0

def Slot.stepsLeft : Slot Callback Ctx → ℕ
  | .opened dev => dev.transferThread.stepsLeft
  | .closed _ => 0

def Action.threadSteps : Action Callback Ctx → ℕ
  | .thread _ => 1
  | _ => 0

/-- The step is the one by which a start call gets past its busy check. -/
def Device.beginsSession (dev : Device Callback Ctx)
    (action : Action Callback Ctx) : Bool :=
  match action, dev.call with
  | .api, .start _ _ .testStarted => !dev.transferThreadStarted
  | _, _ => false

/-- No start call is about to set the flags, and the loop of the transfer
thread ends if there is a thread. -/
structure Device.WindingDown (dev : Device Callback Ctx) : Prop where
  settled : dev.call.pastBusyCheck = false
  loopEnds : (dev.transferThread = .absent ∧
      dev.transferThreadStarted = false) ∨
    ¬(dev.streaming = true ∧ dev.doExit = false)

namespace Device

variable {dev dev' dev₁ : Device Callback Ctx}

/-- A step keeps a device winding down if it leaves the thread alone or joins
it, and sets no flag for another iteration. -/
theorem WindingDown.of_frame (hwinding : dev.WindingDown)
    (hsettled : dev'.call.pastBusyCheck = false)
    (hthread : dev'.transferThread = dev.transferThread ∨
      dev'.transferThread = .absent)
    (hstarted : dev'.transferThreadStarted = true →
      dev.transferThreadStarted = true)
    (hstreaming : dev'.streaming = true → dev.streaming = true)
    (hdoExit : dev'.doExit = false → dev.doExit = false) :
    dev'.WindingDown ∧
      dev'.transferThread.stepsLeft ≤ dev.transferThread.stepsLeft := by
  constructor
  · constructor
    · exact hsettled
    · rcases hwinding.loopEnds with ⟨habsent, hunstarted⟩ | hends
      · left
        constructor
        · exact hthread.elim (fun hsame => hsame.trans habsent) id
        · rw [← Bool.not_eq_true] at hunstarted ⊢
          exact fun hflag => hunstarted (hstarted hflag)
      · right
        rintro ⟨hon, hstay⟩
        exact hends ⟨hstreaming hon, hdoExit hstay⟩
  · rcases hthread with hsame | habsent
    · rw [hsame]
    · rw [habsent]
      exact Nat.zero_le _

theorem WindingDown.of_stopStep {outs : StopOutcomes} {pc : StopPc}
    {next : StopNext} (hwinding : dev.WindingDown)
    (hstep : dev.stopStep outs pc = some (next, dev₁))
    (hsettled : dev'.call.pastBusyCheck = false)
    (hthread : dev'.transferThread = dev₁.transferThread)
    (hstarted : dev'.transferThreadStarted = dev₁.transferThreadStarted)
    (hstreaming : dev'.streaming = dev₁.streaming)
    (hdoExit : dev'.doExit = dev₁.doExit) :
    dev'.WindingDown ∧
      dev'.transferThread.stepsLeft ≤ dev.transferThread.stepsLeft := by
  have hmove := stopMove_of_stopStep hstep
  apply hwinding.of_frame hsettled
  · rw [hthread]
    cases hmove <;> simp [requestExit, cancelTransfer, setTransfer]
  · rw [hstarted]
    exact hmove.frame.started
  · rw [hstreaming]
    cases hmove <;> simp [requestExit, cancelTransfer, setTransfer]
  · rw [hdoExit]
    exact hmove.frame.doExit

theorem WindingDown.keep {action : Action Callback Ctx}
    (hmove : dev.Move action dev') (hbegins : dev.beginsSession action = false)
    (hwinding : dev.WindingDown) :
    dev'.WindingDown ∧
      dev'.transferThread.stepsLeft + action.threadSteps ≤
        dev.transferThread.stepsLeft := by
  have hsettled := hwinding.settled
  cases hmove with
  | entered call hcall =>
      apply hwinding.of_frame <;> simp [goto]
  | controlDone result hcall | modeRefused args outs hcall hmode =>
      apply hwinding.of_frame <;> simp [finish, Call.pastBusyCheck]
  | modeSet args outs hcall hmode =>
      apply hwinding.of_frame <;> simp [goto, Call.pastBusyCheck]
  | ctxStored args outs hcall =>
      apply hwinding.of_frame
      all_goals
        cases hdir : args.direction <;>
          simp [storeCtx, goto, Call.pastBusyCheck]
  | busy args outs hcall hstarted =>
      apply hwinding.of_frame <;> simp [finish, Call.pastBusyCheck]
  | begun args outs hcall hstarted =>
      simp [beginsSession, hcall, hstarted] at hbegins
  | stopAt outs pc next dev₁ hcall hstep =>
      exact hwinding.of_stopStep hstep rfl rfl rfl rfl rfl
  | stopDone outs pc code dev₁ hcall hstep =>
      exact hwinding.of_stopStep hstep rfl rfl rfl rfl rfl
  | closeStopRx wasStarted outs1 outs2 pc next dev₁ hcall hstep =>
      apply hwinding.of_stopStep hstep
      · cases next <;> rfl
      · rfl
      · rfl
      · rfl
      · rfl
  | closeStopTx wasStarted outs1 outs2 result1 pc next dev₁ hcall hstep =>
      apply hwinding.of_stopStep hstep
      · cases next <;> rfl
      · rfl
      · rfl
      · rfl
      · rfl
  | usbClosed wasStarted outs1 outs2 result1 result2 hcall =>
      apply hwinding.of_frame <;> simp [goto, Call.pastBusyCheck]
  | transferFreed wasStarted outs1 outs2 result1 result2 index pc hcall hpc =>
      apply hwinding.of_frame <;>
        simp [freeTransfer, setTransfer, goto, Call.pastBusyCheck]
  | threadWaits failed hthread hon =>
      rcases hwinding.loopEnds with ⟨habsent, _⟩ | hends
      · rw [hthread] at habsent
        cases habsent
      · exact absurd hon hends
  | threadExits failed hthread hoff =>
      constructor
      · exact ⟨hsettled, .inr hoff⟩
      · simp [hthread, ThreadState.stepsLeft, Action.threadSteps]
  | eventsHandled hthread =>
      constructor
      · constructor
        · exact hsettled
        · exact .inr (hwinding.loopEnds.resolve_left (by simp [hthread]))
      · simp [hthread, ThreadState.stepsLeft, Action.threadSteps]
  | eventsFailed hthread =>
      constructor
      · constructor
        · exact hsettled
        · right
          simp
      · simp [hthread, ThreadState.stepsLeft, Action.threadSteps]
  | delivered index status hinFlight hfree =>
      apply hwinding.of_frame <;> simp [takeOut, setTransfer, hsettled]
  | callbackCalled ok handler callback hhandler hphase hcallback =>
      apply hwinding.of_frame <;> simp [hsettled]
  | resubmitted handler hhandler hphase hfree =>
      apply hwinding.of_frame <;> simp [putInFlight, setTransfer, hsettled]
  | resubmitRefused ok handler hhandler hphase hrefused =>
      apply hwinding.of_frame <;> simp [hsettled]
  | exitRequested ok handler hhandler hphase =>
      apply hwinding.of_frame <;> simp [requestExit, hsettled]
  | _ => simp_all [Call.pastBusyCheck]

end Device

/-! ## Runs -/

theorem localStep_closed {slot : Slot Callback Ctx}
    {action : Action Callback Ctx} {result : Option HackrfError}
    (hstep : localStep slot action = some (.closed result)) :
    action = .api := by
  cases slot with
  | closed before => cases action <;> simp [localStep] at hstep
  | opened dev =>
      cases action with
      | api => rfl
      | enter call =>
          simp only [localStep] at hstep
          split at hstep <;> simp at hstep
      | _ => simp [localStep] at hstep

theorem Slot.windingDown_keep {slot slot' : Slot Callback Ctx}
    {action : Action Callback Ctx}
    (hstep : localStep slot action = some slot')
    (hbegins : slot.Holds fun dev => dev.beginsSession action = false)
    (hwinding : slot.Holds Device.WindingDown) :
    slot'.Holds Device.WindingDown ∧
      slot'.stepsLeft + action.threadSteps ≤ slot.stepsLeft := by
  cases slot with
  | closed result =>
      cases action <;> simp [localStep] at hstep
      subst slot'
      exact ⟨⟨rfl, .inl ⟨rfl, rfl⟩⟩, Nat.le_refl _⟩
  | opened dev =>
      cases slot' with
      | closed result =>
          rw [localStep_closed hstep]
          exact ⟨trivial, Nat.zero_le _⟩
      | opened dev' =>
          exact Device.WindingDown.keep (Device.move_of_localStep hstep) hbegins
            hwinding

variable [DecidableEq D]

/-- The condition on a run: no start call on the device gets past its busy
check. -/
def NoSessionOn (d : D) (state : State D Callback Ctx)
    (event : Event D Callback Ctx) (next : State D Callback Ctx) : Prop :=
  event.device = d →
    OnDevice (fun dev action => dev.beginsSession action = false)
      state event next

instance (d : D) (state : State D Callback Ctx)
    (event : Event D Callback Ctx) (next : State D Callback Ctx) :
    Decidable (NoSessionOn d state event next) :=
  inferInstanceAs (Decidable (_ → OnDevice _ state event next))

def Event.threadSteps (d : D) (event : Event D Callback Ctx) : ℕ :=
  if event.device = d then event.action.threadSteps else 0

theorem State.windingDown_keep {d : D} {state next : State D Callback Ctx}
    {event : Event D Callback Ctx} (hstep : state.step event = some next)
    (hbegins : NoSessionOn d state event next)
    (hwinding : (state.slots d).Holds Device.WindingDown) :
    (next.slots d).Holds Device.WindingDown ∧
      (next.slots d).stepsLeft + event.threadSteps d ≤
        (state.slots d).stepsLeft := by
  obtain ⟨hself, hother⟩ := State.step_local hstep
  unfold Event.threadSteps
  by_cases hd : event.device = d
  · rw [if_pos hd]
    have hallowed := hbegins hd
    subst hd
    exact Slot.windingDown_keep hself hallowed hwinding
  · rw [if_neg hd, hother d (Ne.symm hd)]
    exact ⟨hwinding, Nat.le_refl _⟩

omit [DecidableEq D] in
theorem Call.FlagFits.absent {present : Bool} {call : Call Callback Ctx}
    (hfits : call.FlagFits false present)
    (hsettled : call.pastBusyCheck = false) : present = false := by
  cases call with
  | idle | control result => exact hfits.symm
  | start args outs pc =>
      cases pc <;> first | exact hfits.symm | cases hsettled
  | stop outs pc =>
      cases pc <;> simp_all [Call.FlagFits, StopPc.FlagFits]
  | close wasStarted outs1 outs2 pc =>
      cases pc with
      | stopRx pc | stopTx result1 pc =>
          cases pc <;> simp_all [Call.FlagFits, StopPc.FlagFits]
      | _ => exact hfits.symm

omit [DecidableEq D] in
theorem Device.windingDown_of_not_streaming {dev : Device Callback Ctx}
    (hthread : dev.ThreadInvariant)
    (hsettled : dev.call.pastBusyCheck = false)
    (hoff : dev.hackrfIsStreaming ≠ .true) : dev.WindingDown := by
  constructor
  · exact hsettled
  · by_cases hon : dev.streaming = true ∧ dev.doExit = false
    · left
      have hstarted : dev.transferThreadStarted = false := by
        by_contra hne
        apply hoff
        simp [hackrfIsStreaming, hon, Bool.eq_true_of_not_eq_false hne]
      unfold ThreadInvariant at hthread
      rw [hstarted] at hthread
      refine ⟨?_, hstarted⟩
      simpa [hasThread] using hthread.absent hsettled
    · exact .inr hon

omit [DecidableEq D] in
theorem Device.WindingDown.not_streaming {dev : Device Callback Ctx}
    (hwinding : dev.WindingDown) : dev.hackrfIsStreaming ≠ .true := by
  intro htrue
  obtain ⟨hstarted, hon⟩ := flags_of_hackrfIsStreaming htrue
  rcases hwinding.loopEnds with ⟨_, hunstarted⟩ | hends
  · rw [hstarted] at hunstarted
    cases hunstarted
  · exact hends hon

omit [DecidableEq D] in
theorem State.slots_of_device {state : State D Callback Ctx} {d : D}
    {dev : Device Callback Ctx} (hdevice : state.device d = some dev) :
    state.slots d = .opened dev := by
  unfold State.device at hdevice
  split at hdevice
  next hslot => rw [hslot, Option.some.inj hdevice]
  next => cases hdevice

/-- When `hackrf_is_streaming` does not return `HACKRF_TRUE` for a device on
which no start call is past its busy check, it does not return it again, and
the transfer thread takes at most two more steps, until a start call gets past
its busy check: in every run, whatever the other devices do. -/
theorem hackrfIsStreaming_stays_off
    {before after : List (Event D Callback Ctx)}
    {state : State D Callback Ctx} {d : D} {dev dev' : Device Callback Ctx}
    (hrun : EventRun.run State.step State.initial before = some state)
    (hdev : state.device d = some dev)
    (hsettled : dev.call.pastBusyCheck = false)
    (hoff : dev.hackrfIsStreaming ≠ .true)
    (hbegins : EventRun.Along State.step (NoSessionOn d) state after)
    (hdev' : deviceAfter (before ++ after) d = some dev') :
    dev'.hackrfIsStreaming ≠ .true ∧
      (after.map (Event.threadSteps d)).sum ≤ 2 := by
  have hthread : dev.ThreadInvariant := by
    have hbefore : deviceAfter before d = some dev := by
      simp [deviceAfter, hrun, hdev]
    exact Device.ThreadInvariant.isLocal.of_reachable hbefore
  have hwinding : (state.slots d).Holds Device.WindingDown := by
    rw [State.slots_of_device hdev]
    exact Device.windingDown_of_not_streaming hthread hsettled hoff
  obtain ⟨final, hfinal, hslot⟩ := deviceAfter_eq_some hdev'
  rw [EventRun.run_append, hrun] at hfinal
  have hkept : (final.slots d).Holds Device.WindingDown :=
    EventRun.invariant_of_along
      (fun state : State D Callback Ctx =>
        (state.slots d).Holds Device.WindingDown)
      (fun state event next hstep hC hinv =>
        (State.windingDown_keep hstep hC hinv).1)
      hwinding hbegins hfinal
  have hpaid := EventRun.cost_le_of_along
    (fun state : State D Callback Ctx =>
      (state.slots d).Holds Device.WindingDown)
    (fun state => (state.slots d).stepsLeft) (Event.threadSteps d)
    (fun state event next => State.windingDown_keep)
    hwinding hbegins hfinal
  constructor
  · rw [hslot] at hkept
    exact hkept.not_streaming
  · have htwo : (state.slots d).stepsLeft ≤ 2 := by
      rw [State.slots_of_device hdev]
      cases hstate : dev.transferThread <;>
        simp [Slot.stepsLeft, hstate, ThreadState.stepsLeft]
    omega

/-- A transfer of a receiving device completes with an error; the thread
leaves its loop and the application stops the device. -/
theorem hackrfIsStreaming_stays_off_stop :
    let before : List (Event Unit ℕ ℕ) :=
      [.open (), .enter () (.startRx 0 0 ⟨true, fun _ => true, true⟩)] ++
        apiSteps () 13 ++
      [.thread () false, .deliver (.transferThread ()) () 0 .error,
        .handler () true]
    let after : List (Event Unit ℕ ℕ) :=
      [.thread () false, .thread () false,
        .enter () (.stopRx ⟨true, true⟩)] ++ apiSteps () 8
    ∃ dev, deviceAfter (before ++ after) () = some dev ∧
      dev.hackrfIsStreaming ≠ .true ∧
      (after.map (Event.threadSteps ())).sum ≤ 2 := by
  intro before after
  obtain ⟨state, hrun⟩ : ∃ state,
      EventRun.run State.step State.initial before = some state :=
    Option.isSome_iff_exists.mp (by decide)
  obtain ⟨dev', hdev'⟩ : ∃ dev, deviceAfter (before ++ after) () = some dev :=
    Option.isSome_iff_exists.mp (by decide)
  have hsome : (deviceAfter before ()).map
        (fun dev => (dev.call.pastBusyCheck, dev.hackrfIsStreaming)) =
      some (false, .streamingExitCalled) := by decide
  have hdevice : deviceAfter before () = state.device () := by
    simp [deviceAfter, hrun]
  obtain ⟨dev, hdev, heq⟩ := Option.map_eq_some_iff.mp (hdevice ▸ hsome)
  obtain ⟨hsettled, hoff⟩ := Prod.mk.inj heq
  have hall : (EventRun.run State.step State.initial before).all (fun state =>
      decide (EventRun.Along State.step (NoSessionOn ()) state after)) =
        true := by decide
  have hbegins : EventRun.Along State.step (NoSessionOn ()) state after := by
    rw [hrun] at hall
    exact of_decide_eq_true hall
  exact ⟨dev', hdev', hackrfIsStreaming_stays_off hrun hdev hsettled
    (by rw [hoff]; decide) hbegins hdev'⟩

end HackRF.Streaming
