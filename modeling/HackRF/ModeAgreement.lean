import HackRF.StreamingCoverage

/-!
# The transceiver mode while streaming

A start call commands the hardware to its mode before it looks whether the
device is busy, and a refused one leaves the new mode behind.  If the
application starts stopped devices only, and does not call
`hackrf_cpld_write`, which commands a mode of its own at any time, the mode of a
device which streams is that of the direction its transfers go, outside of the
stop call that has just switched the hardware off.
-/

namespace HackRF.Streaming

variable {D Callback Ctx : Type*}

def ApiCall.starts : ApiCall Callback Ctx → Bool
  | .startRx _ _ _ => true
  | .startTx _ _ _ => true
  | _ => false

def Call.starts : Call Callback Ctx → Bool
  | .start _ _ _ => true
  | _ => false

/-- The direction of a start call whose mode request has succeeded. -/
def Call.commanded : Call Callback Ctx → Option Direction
  | .start _ _ .modeRequest => none
  | .start args _ _ => some args.direction
  | _ => none

/-- A stop call has switched the hardware off and not yet requested exit. -/
def Call.switchedOff : Call Callback Ctx → Bool
  | .stop _ .requestExit => true
  | .close _ _ _ (.stopRx .requestExit) => true
  | .close _ _ _ (.stopTx _ .requestExit) => true
  | _ => false

/-- A start call is not entered while the transfer thread is started. -/
def Device.startsStopped (dev : Device Callback Ctx) :
    Action Callback Ctx → Bool
  | .enter call => !call.starts || !dev.transferThreadStarted
  | _ => true

/-- The hardware is in the mode of the direction, and so are the transfers. -/
structure Device.Agrees (dev : Device Callback Ctx) (direction : Direction) :
    Prop where
  mode : dev.mode = some direction.mode
  endpoint : ∀ index, (dev.transfers index).endpoint = direction.endpoint

structure Device.ModeInvariant (dev : Device Callback Ctx) : Prop where
  notStarted : dev.call.starts = true → dev.transferThreadStarted = false
  commanded : ∀ direction, dev.call.commanded = some direction →
    dev.mode = some direction.mode ∧ ∀ index,
      dev.call.hasSubmitted index = true →
        (dev.transfers index).endpoint = direction.endpoint
  agrees : dev.transferThreadStarted = true → dev.doExit = false →
    dev.call.switchedOff = false → ∃ direction, dev.Agrees direction

@[simp] theorem ApiCall.entry_starts (call : ApiCall Callback Ctx)
    (dev : Device Callback Ctx) : (call.entry dev).starts = call.starts := by
  cases call <;> rfl

@[simp] theorem ApiCall.entry_commanded (call : ApiCall Callback Ctx)
    (dev : Device Callback Ctx) : (call.entry dev).commanded = none := by
  cases call <;> rfl

namespace Device

variable {dev dev' dev₁ : Device Callback Ctx}

/-! ## Steps which leave the mode alone -/

theorem ModeInvariant.of_frame (hinv : dev.ModeInvariant)
    (hmode : dev'.mode = dev.mode)
    (hendpoint : ∀ index,
      (dev'.transfers index).endpoint = (dev.transfers index).endpoint)
    (hstarted : dev'.transferThreadStarted = true →
      dev.transferThreadStarted = true)
    (hdoExit : dev'.doExit = false → dev.doExit = false)
    (hstarts : dev'.call.starts = true → dev.call.starts = true)
    (hcommanded : ∀ direction, dev'.call.commanded = some direction →
      dev.call.commanded = some direction)
    (hsubmitted : ∀ index, dev'.call.hasSubmitted index = true →
      dev.call.hasSubmitted index = true)
    (hoff : dev'.call.switchedOff = false → dev.call.switchedOff = false) :
    dev'.ModeInvariant := by
  constructor
  · intro hcall
    rw [← Bool.not_eq_true]
    intro hrunning
    have hold := hinv.notStarted (hstarts hcall)
    rw [hstarted hrunning] at hold
    cases hold
  · intro direction hcall
    obtain ⟨hcommand, hprepared⟩ := hinv.commanded direction
      (hcommanded direction hcall)
    rw [hmode]
    refine ⟨hcommand, fun index hindex => ?_⟩
    rw [hendpoint]
    exact hprepared index (hsubmitted index hindex)
  · intro hrunning hexit hon
    obtain ⟨direction, hagrees⟩ := hinv.agrees (hstarted hrunning)
      (hdoExit hexit) (hoff hon)
    refine ⟨direction, hmode.trans hagrees.mode, fun index => ?_⟩
    rw [hendpoint]
    exact hagrees.endpoint index

/-! ## The statements of a start call -/

/-- While the thread is not started, only the progress of the call counts. -/
theorem ModeInvariant.of_notStarted
    (hstarted : dev'.transferThreadStarted = false)
    (hcommanded : ∀ direction, dev'.call.commanded = some direction →
      dev'.mode = some direction.mode ∧ ∀ index,
        dev'.call.hasSubmitted index = true →
          (dev'.transfers index).endpoint = direction.endpoint) :
    dev'.ModeInvariant where
  notStarted := fun _ => hstarted
  commanded := hcommanded
  agrees := by
    intro hrunning
    rw [hstarted] at hrunning
    cases hrunning

theorem ModeInvariant.submitted {args : StartCall Callback Ctx}
    {outs : StartOutcomes} {index : TransferIndex} {pc : StartPc}
    (hinv : dev.ModeInvariant)
    (hcall : dev.call = .start args outs (.submit index))
    (hpc : (∃ next, index.next = some next ∧ pc = .submit next) ∨
      (index.next = none ∧ pc = .setStreaming)) :
    (((dev.setEndpoint index args.direction.endpoint).putInFlight index
      (some (dev.currentSession args))).goto
        (.start args outs pc)).ModeInvariant := by
  obtain ⟨hmode, hprepared⟩ := hinv.commanded args.direction
    (by simp [hcall, Call.commanded])
  apply ModeInvariant.of_notStarted
  · exact hinv.notStarted (by simp [hcall, Call.starts])
  · intro direction hcommanded
    have hdirection : direction = args.direction := by
      rcases hpc with ⟨next, hnext, rfl⟩ | ⟨hnext, rfl⟩
      · simpa [goto, Call.commanded, eq_comm] using hcommanded
      · simpa [goto, Call.commanded, eq_comm] using hcommanded
    subst hdirection
    refine ⟨hmode, fun k hsubmitted => ?_⟩
    by_cases hk : k = index
    · simp [goto, hk]
    · have hearlier : k < index := by
        rcases hpc with ⟨next, hnext, rfl⟩ | ⟨hnext, rfl⟩
        · have hlt : k < next := by
            simpa [goto, Call.hasSubmitted] using hsubmitted
          exact ((TransferIndex.lt_of_next hnext k).mp hlt).resolve_right hk
        · exact (TransferIndex.le_of_next_none hnext k).resolve_right hk
      simpa [goto, hk] using
        hprepared k (by simpa [hcall, Call.hasSubmitted] using hearlier)

theorem ModeInvariant.startedSet {args : StartCall Callback Ctx}
    {outs : StartOutcomes} (hinv : dev.ModeInvariant)
    (hcall : dev.call = .start args outs .setStarted) :
    ({ dev with transferThreadStarted := true }.finish
      .success).ModeInvariant := by
  obtain ⟨hmode, hprepared⟩ := hinv.commanded args.direction
    (by simp [hcall, Call.commanded])
  constructor
  · simp [finish, Call.starts]
  · simp [finish, Call.commanded]
  · intro _ _ _
    exact ⟨args.direction, hmode, fun index =>
      hprepared index (by simp [hcall, Call.hasSubmitted])⟩

/-! ## The statements of a stop call -/

theorem ModeInvariant.of_stopStep {outs : StopOutcomes} {pc : StopPc}
    {next : StopNext} (hinv : dev.ModeInvariant)
    (hstep : dev.stopStep outs pc = some (next, dev₁))
    (hcall : pc ≠ .requestExit → dev.call.switchedOff = false)
    (hoff : next = .at .requestExit → dev'.call.switchedOff = true)
    (hstarts : dev'.call.starts = false)
    (hcommanded : dev'.call.commanded = none)
    (hsame : dev'.mode = dev₁.mode ∧ dev'.transfers = dev₁.transfers ∧
      dev'.doExit = dev₁.doExit ∧
      dev'.transferThreadStarted = dev₁.transferThreadStarted) :
    dev'.ModeInvariant := by
  obtain ⟨hmode, htransfers, hdoExit, hstarted⟩ := hsame
  have hmove := stopMove_of_stopStep hstep
  have hframe := hmove.frame
  -- what is left of the invariant once the hardware mode is the old one
  have hkept : dev₁.mode = dev.mode → pc ≠ .requestExit →
      dev'.transferThreadStarted = true → dev'.doExit = false →
        ∃ direction, dev'.Agrees direction := by
    intro hold hpc hrunning hexit
    obtain ⟨direction, hagrees⟩ := hinv.agrees
      (hframe.started (hstarted ▸ hrunning))
      (hframe.doExit (hdoExit ▸ hexit)) (hcall hpc)
    refine ⟨direction, ?_, fun index => ?_⟩
    · rw [hmode, hold]
      exact hagrees.mode
    · rw [htransfers, hframe.endpoint]
      exact hagrees.endpoint index
  constructor
  · simp [hstarts]
  · simp [hcommanded]
  · intro hrunning hexit hon
    cases hmove with
    | modeSet hset =>
        rw [hoff rfl] at hon
        cases hon
    | exitRequested =>
        rw [hdoExit] at hexit
        simp [requestExit] at hexit
    | _ => exact hkept rfl (by simp) hrunning hexit

/-! ## Every step -/

theorem ModeInvariant.keep {action : Action Callback Ctx}
    (hmove : dev.Move action dev') (hstopped : dev.startsStopped action = true)
    (hinv : dev.ModeInvariant) : dev'.ModeInvariant := by
  cases hmove with
  | entered call hcall =>
      constructor
      · intro hstarts
        have hcalled : call.starts = true := by simpa [goto] using hstarts
        have hunstarted : dev.transferThreadStarted = false := by
          simpa [startsStopped, hcalled] using hstopped
        exact hunstarted
      · simp [goto]
      · intro hrunning hexit _
        obtain ⟨direction, hagrees⟩ := hinv.agrees hrunning hexit
          (by rw [hcall]; rfl)
        exact ⟨direction, hagrees.mode, hagrees.endpoint⟩
  | modeSet args outs hcall hmode =>
      apply ModeInvariant.of_notStarted
      · exact hinv.notStarted (by simp [hcall, Call.starts])
      · intro direction hcommanded
        have hdirection : args.direction = direction :=
          Option.some.inj hcommanded
        rw [hdirection]
        exact ⟨rfl, fun index hsubmitted => by cases hsubmitted⟩
  | submitted args outs index pc hcall _ _ hpc =>
      exact hinv.submitted hcall hpc
  | startedSet args outs hcall => exact hinv.startedSet hcall
  | submitRefused args outs index hcall hrefused =>
      apply ModeInvariant.of_notStarted
      · exact hinv.notStarted (by simp [hcall, Call.starts])
      · simp [finish, Call.commanded]
  | stopAt outs pc next dev₁ hcall hstep =>
      apply hinv.of_stopStep hstep
      · intro hpc
        rw [hcall]
        cases pc <;> first | rfl | exact absurd rfl hpc
      · intro hnext
        cases hnext
        rfl
      · rfl
      · rfl
      · exact ⟨rfl, rfl, rfl, rfl⟩
  | stopDone outs pc code dev₁ hcall hstep =>
      apply hinv.of_stopStep hstep
      · intro hpc
        rw [hcall]
        cases pc <;> first | rfl | exact absurd rfl hpc
      · simp
      · rfl
      · rfl
      · exact ⟨rfl, rfl, rfl, rfl⟩
  | closeStopRx wasStarted outs1 outs2 pc next dev₁ hcall hstep =>
      apply hinv.of_stopStep hstep
      · intro hpc
        rw [hcall]
        cases pc <;> first | rfl | exact absurd rfl hpc
      · rintro rfl
        rfl
      · rfl
      · rfl
      · exact ⟨rfl, rfl, rfl, rfl⟩
  | closeStopTx wasStarted outs1 outs2 result1 pc next dev₁ hcall hstep =>
      apply hinv.of_stopStep hstep
      · intro hpc
        rw [hcall]
        cases pc <;> first | rfl | exact absurd rfl hpc
      · rintro rfl
        rfl
      · rfl
      · rfl
      · exact ⟨rfl, rfl, rfl, rfl⟩
  | ctxStored args outs hcall =>
      apply hinv.of_frame
      all_goals
        cases hdir : args.direction <;>
          simp [storeCtx, goto, hcall, hdir, Call.starts, Call.commanded,
            Call.hasSubmitted, Call.switchedOff]
  | doExitCleared args outs hcall =>
      apply ModeInvariant.of_notStarted
      · exact hinv.notStarted (by simp [hcall, Call.starts])
      · intro direction hcommanded
        obtain ⟨hmode, -⟩ := hinv.commanded direction
          (by simpa [goto, hcall, Call.commanded] using hcommanded)
        exact ⟨hmode, fun index hsubmitted => by
          simp [goto, Call.hasSubmitted] at hsubmitted⟩
  | transferFreed wasStarted outs1 outs2 result1 result2 index pc hcall hpc =>
      apply hinv.of_frame
      · rfl
      · intro k
        simp [goto]
      · exact id
      · exact id
      · simp [goto, Call.starts]
      · simp [goto, Call.commanded]
      · simp [goto, Call.hasSubmitted]
      · intro _
        rw [hcall]
        rfl
  | delivered index status hinFlight hfree =>
      apply hinv.of_frame
      · rfl
      · intro k
        exact dev.takeOut_endpoint index k
      · exact id
      · exact id
      · exact id
      · exact fun _ => id
      · exact fun _ => id
      · exact id
  | resubmitted handler hhandler hphase hfree =>
      apply hinv.of_frame
      · rfl
      · intro k
        exact dev.putInFlight_endpoint handler.index k handler.session
      · exact id
      · exact id
      · exact id
      · exact fun _ => id
      · exact fun _ => id
      · exact id
  | _ =>
      apply hinv.of_frame <;>
        simp_all [goto, finish, beginSession, installCallback, requestExit,
          Call.starts, Call.commanded, Call.hasSubmitted, Call.switchedOff]

theorem ModeInvariant.isLocal :
    LocalInvariant (fun dev action => dev.startsStopped action = true)
      (ModeInvariant : Device Callback Ctx → Prop) where
  fresh := by
    constructor <;> simp [fresh, Call.starts, Call.commanded]
  keep := fun _ _ _ hstopped hstep hinv =>
    hinv.keep (move_of_localStep hstep) hstopped

end Device

/-! ## Runs -/

variable [DecidableEq D]

/-- The condition on a run: the application starts the device only while its
transfer thread is not started. -/
def StartsStoppedOn (d : D) (state : State D Callback Ctx)
    (event : Event D Callback Ctx) (next : State D Callback Ctx) : Prop :=
  event.device = d →
    OnDevice (fun dev action => dev.startsStopped action = true)
      state event next

instance (d : D) (state : State D Callback Ctx)
    (event : Event D Callback Ctx) (next : State D Callback Ctx) :
    Decidable (StartsStoppedOn d state event next) :=
  inferInstanceAs (Decidable (_ → OnDevice _ state event next))

theorem State.modeInvariant_keep {d : D} {state next : State D Callback Ctx}
    {event : Event D Callback Ctx} (hstep : state.step event = some next)
    (hstopped : StartsStoppedOn d state event next)
    (hinv : (state.slots d).Holds Device.ModeInvariant) :
    (next.slots d).Holds Device.ModeInvariant := by
  obtain ⟨hself, hother⟩ := State.step_local hstep
  by_cases hd : event.device = d
  · have hallowed := hstopped hd
    subst hd
    exact Device.ModeInvariant.isLocal.slot hallowed hself hinv
  · rw [hother d (Ne.symm hd)]
    exact hinv

/-- In every run of calls other than `hackrf_cpld_write` in which a device is
started only while it is stopped, whatever is done with the other devices: when
`hackrf_is_streaming` returns `HACKRF_TRUE` for it, the hardware is in the mode
of the direction in which all its transfers go, unless a stop call has switched
the hardware off and is about to request exit. -/
theorem mode_of_streaming {events : List (Event D Callback Ctx)} {d : D}
    {dev : Device Callback Ctx}
    (hstopped : EventRun.Along State.step (StartsStoppedOn d)
      State.initial events)
    (hdev : deviceAfter events d = some dev)
    (hstreaming : dev.hackrfIsStreaming = .true)
    (hcall : dev.call.switchedOff = false) :
    ∃ direction, dev.Agrees direction := by
  obtain ⟨state, hrun, hslot⟩ := deviceAfter_eq_some hdev
  have hinv : (state.slots d).Holds Device.ModeInvariant :=
    EventRun.invariant_of_along
      (fun state : State D Callback Ctx =>
        (state.slots d).Holds Device.ModeInvariant)
      (fun state event next hstep hC hinv =>
        State.modeInvariant_keep hstep hC hinv)
      (show (Slot.closed none).Holds Device.ModeInvariant from trivial)
      hstopped hrun
  rw [hslot] at hinv
  obtain ⟨hstarted, _, hexit⟩ := Device.flags_of_hackrfIsStreaming hstreaming
  exact hinv.agrees hstarted hexit hcall

/-- A device that was stopped and started in the other direction, while a
start call on another one is refused as busy. -/
theorem mode_of_streaming_restarted :
    let started : StartOutcomes := ⟨true, fun _ => true, true⟩
    let cancelled (index : TransferIndex) : List (Event Bool ℕ ℕ) :=
      [.deliver (.transferThread false) true index .cancelled,
        .handler true true]
    let events : List (Event Bool ℕ ℕ) :=
      [.open false, .enter false (.startRx 0 0 started)] ++ apiSteps false 13 ++
      [.thread false false, .open true, .enter true (.startRx 1 1 started)] ++
      apiSteps true 13 ++
      [.enter true (.stopRx ⟨true, true⟩), .api true, .api true,
        .thread true false] ++ apiSteps true 6 ++
      (List.finRange transferCount).flatMap cancelled ++
      [.enter false (.startTx 2 2 started)] ++ apiSteps false 3 ++
      [.enter true (.startTx 3 3 started)] ++ apiSteps true 13
    ∃ dev, deviceAfter events true = some dev ∧ dev.Agrees .tx := by
  intro started cancelled events
  have hsome : (deviceAfter events true).map (fun dev =>
      (dev.hackrfIsStreaming, dev.call.switchedOff, dev.mode)) =
      some (.true, false, some .transmit) := by decide +kernel
  obtain ⟨dev, hdev, hfields⟩ := Option.map_eq_some_iff.mp hsome
  obtain ⟨hstreaming, hrest⟩ := Prod.mk.inj hfields
  obtain ⟨hcall, hmode⟩ := Prod.mk.inj hrest
  obtain ⟨direction, hagrees⟩ :=
    mode_of_streaming (by decide +kernel) hdev hstreaming hcall
  have hdirection : direction = .tx := by
    cases direction with
    | tx => rfl
    | rx =>
        have hreceive := hmode.symm.trans hagrees.mode
        cases hreceive
  exact ⟨dev, hdev, hdirection ▸ hagrees⟩

end HackRF.Streaming
