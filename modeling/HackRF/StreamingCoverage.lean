import HackRF.StreamingMoves

/-!
# No transfer is lost while streaming is reported

`hackrf_is_streaming` looks at three flags which the application and the
threads that handle events write.  Here the flags are tied to the transfers:
while `do_exit` is false, every transfer that the start call in progress has
submitted, or that a started transfer thread is responsible for, is in flight
or in the hands of its completion handler.  The link is that a handler leaves
a transfer behind only by requesting exit, and that only a start call past the
busy check takes the request back, before it submits anything.
-/

namespace HackRF.Streaming

variable {D Callback Ctx : Type*}

def Device.Covered (dev : Device Callback Ctx) (index : TransferIndex) : Prop :=
  (dev.transfers index).inFlight = true ∨
    ∃ handler, dev.handler = some handler ∧ handler.index = index

def Call.pastBusyCheck : Call Callback Ctx → Bool
  | .start _ _ .modeRequest => false
  | .start _ _ .storeCtx => false
  | .start _ _ .testStarted => false
  | .start _ _ _ => true
  | _ => false

def Call.hasSubmitted (index : TransferIndex) : Call Callback Ctx → Bool
  | .start _ _ (.submit reached) => index < reached
  | .start _ _ .setStreaming => true
  | .start _ _ .setCallback => true
  | .start _ _ .createThread => true
  | .start _ _ .setStarted => true
  | _ => false

/-- The transfers which are covered unless exit has been requested. -/
def Device.Required (dev : Device Callback Ctx) (index : TransferIndex) :
    Prop :=
  dev.transferThreadStarted = true ∨ dev.call.hasSubmitted index = true

structure Device.CoverageInvariant (dev : Device Callback Ctx) : Prop where
  notStarted : dev.call.pastBusyCheck = true →
    dev.transferThreadStarted = false
  covered : dev.doExit = false →
    ∀ index, dev.Required index → dev.Covered index

@[simp] theorem ApiCall.entry_pastBusyCheck
    (call : ApiCall Callback Ctx) (dev : Device Callback Ctx) :
    (call.entry dev).pastBusyCheck = false := by
  cases call <;> rfl

@[simp] theorem ApiCall.entry_hasSubmitted (index : TransferIndex)
    (call : ApiCall Callback Ctx) (dev : Device Callback Ctx) :
    (call.entry dev).hasSubmitted index = false := by
  cases call <;> rfl

namespace Device

variable {dev dev' dev₁ : Device Callback Ctx}

/-- A step keeps the invariant if it adds no required transfer and uncovers
none. -/
theorem CoverageInvariant.of_frame (hinv : dev.CoverageInvariant)
    (hstarted : dev'.transferThreadStarted = true →
      dev.transferThreadStarted = true)
    (hpast : dev'.call.pastBusyCheck = true → dev.call.pastBusyCheck = true)
    (hsubmitted : ∀ index, dev'.call.hasSubmitted index = true →
      dev.call.hasSubmitted index = true)
    (hdoExit : dev'.doExit = false → dev.doExit = false)
    (hcovered : dev'.doExit = false →
      ∀ index, dev.Covered index → dev'.Covered index) :
    dev'.CoverageInvariant := by
  constructor
  · intro hcall
    by_contra hrunning
    have hold := hinv.notStarted (hpast hcall)
    have hstill := hstarted (by simpa using hrunning)
    rw [hold] at hstill
    contradiction
  · intro hexit index hrequired
    exact hcovered hexit index
      (hinv.covered (hdoExit hexit) index
        (hrequired.imp hstarted (hsubmitted index)))

theorem CoverageInvariant.of_stopFrame (hinv : dev.CoverageInvariant)
    (hframe : StopFrame dev dev₁)
    (hcallback : dev'.call.pastBusyCheck = false)
    (hsubmitted : ∀ index, dev'.call.hasSubmitted index = false)
    (hsame : dev'.transfers = dev₁.transfers ∧ dev'.handler = dev₁.handler ∧
      dev'.doExit = dev₁.doExit ∧
      dev'.transferThreadStarted = dev₁.transferThreadStarted) :
    dev'.CoverageInvariant := by
  obtain ⟨htransfers, hhandler, hdoExit, hstarted⟩ := hsame
  apply hinv.of_frame
  · rw [hstarted]
    exact hframe.started
  · simp [hcallback]
  · simp [hsubmitted]
  · rw [hdoExit]
    exact hframe.doExit
  · intro _ index hcovered
    simpa [Covered, htransfers, hhandler, hframe.inFlight,
      hframe.handler] using hcovered

theorem CoverageInvariant.submitted {args : StartCall Callback Ctx}
    {outs : StartOutcomes} {index : TransferIndex} {pc : StartPc}
    (hinv : dev.CoverageInvariant)
    (hcall : dev.call = .start args outs (.submit index))
    (hpc : (∃ next, index.next = some next ∧ pc = .submit next) ∨
      (index.next = none ∧ pc = .setStreaming)) :
    (((dev.setEndpoint index args.direction.endpoint).putInFlight index
      (some (dev.currentSession args))).goto
        (.start args outs pc)).CoverageInvariant := by
  have hnotStarted : dev.transferThreadStarted = false :=
    hinv.notStarted (by simp [hcall, Call.pastBusyCheck])
  constructor
  · intro _
    simpa [goto, putInFlight, setEndpoint, setTransfer] using hnotStarted
  · intro hexit k hrequired
    by_cases hk : k = index
    · left
      simp [goto, hk]
    · have hearlier : k < index := by
        rcases hrequired with hrunning | hsubmitted
        · simp [goto, putInFlight, setEndpoint, setTransfer,
            hnotStarted] at hrunning
        · rcases hpc with ⟨next, hnext, rfl⟩ | ⟨hnext, rfl⟩
          · have hlt : k < next := by
              simpa [goto, Call.hasSubmitted] using hsubmitted
            exact ((TransferIndex.lt_of_next hnext k).mp hlt).resolve_right hk
          · exact (TransferIndex.le_of_next_none hnext k).resolve_right hk
      have hcovered : dev.Covered k :=
        hinv.covered hexit k
          (.inr (by simpa [hcall, Call.hasSubmitted] using hearlier))
      rcases hcovered with hflight | hhandled
      · left
        simpa [goto, hk] using hflight
      · exact .inr hhandled

/-- The last statement of a start call hands all transfers over to the new
thread. -/
theorem CoverageInvariant.startedSet {args : StartCall Callback Ctx}
    {outs : StartOutcomes} (hinv : dev.CoverageInvariant)
    (hcall : dev.call = .start args outs .setStarted) :
    ({ dev with transferThreadStarted := true }.finish
      .success).CoverageInvariant := by
  constructor
  · simp [finish, Call.pastBusyCheck]
  · intro hexit index _
    exact hinv.covered hexit index
      (.inr (by simp [hcall, Call.hasSubmitted]))

/-- A handler that is done has resubmitted its transfer or requested exit. -/
theorem CoverageInvariant.resubmitted {handler : Handler Callback}
    (hinv : dev.CoverageInvariant) (hhandler : dev.handler = some handler) :
    ({ dev.putInFlight handler.index handler.session with
      handler := none } : Device Callback Ctx).CoverageInvariant := by
  apply hinv.of_frame
  · exact id
  · exact id
  · exact fun _ => id
  · exact id
  · intro _ index hcovered
    left
    by_cases hindex : index = handler.index
    · simp [hindex]
    · rcases hcovered with hflight | ⟨other, hother, rfl⟩
      · simp [hflight]
      · rw [hhandler, Option.some.injEq] at hother
        exact absurd (hother ▸ rfl) hindex

theorem CoverageInvariant.keep {action : Action Callback Ctx}
    (hmove : dev.Move action dev') (hinv : dev.CoverageInvariant) :
    dev'.CoverageInvariant := by
  cases hmove with
  | submitted args outs index pc hcall _ _ hpc =>
      exact hinv.submitted hcall hpc
  | startedSet args outs hcall => exact hinv.startedSet hcall
  | resubmitted handler hhandler => exact hinv.resubmitted hhandler
  | stopAt outs pc next dev₁ _ hstep =>
      exact hinv.of_stopFrame (stopFrame_of_stopStep hstep) rfl
        (fun _ => rfl) ⟨rfl, rfl, rfl, rfl⟩
  | stopDone outs pc code dev₁ _ hstep =>
      exact hinv.of_stopFrame (stopFrame_of_stopStep hstep) rfl
        (fun _ => rfl) ⟨rfl, rfl, rfl, rfl⟩
  | closeStopRx wasStarted outs1 outs2 pc next dev₁ _ hstep =>
      exact hinv.of_stopFrame (stopFrame_of_stopStep hstep) rfl
        (fun _ => rfl) ⟨rfl, rfl, rfl, rfl⟩
  | closeStopTx wasStarted outs1 outs2 result1 pc next dev₁ _ hstep =>
      exact hinv.of_stopFrame (stopFrame_of_stopStep hstep) rfl
        (fun _ => rfl) ⟨rfl, rfl, rfl, rfl⟩
  | begun args outs hcall hstarted =>
      -- nothing is required yet: the thread is not started
      constructor
      · intro _
        exact hstarted
      · intro _ index hrequired
        simp [Required, beginSession, goto, hstarted,
          Call.hasSubmitted] at hrequired
  | doExitCleared args outs hcall =>
      have hstarted := hinv.notStarted (by simp [hcall, Call.pastBusyCheck])
      constructor
      · intro _
        exact hstarted
      · intro _ index hrequired
        simp [Required, goto, hstarted, Call.hasSubmitted] at hrequired
  | delivered index status _ hfree =>
      apply hinv.of_frame
      · exact id
      · exact id
      · exact fun _ => id
      · exact id
      · intro _ k hcovered
        by_cases hk : k = index
        · right
          exact ⟨_, rfl, hk.symm⟩
        · left
          simpa [Covered, hfree, hk] using hcovered
  | callbackCalled ok handler callback hhandler =>
      apply hinv.of_frame <;> simp [Covered, hhandler]
  | resubmitRefused ok handler hhandler =>
      apply hinv.of_frame <;> simp [Covered, hhandler]
  | exitRequested ok handler hhandler =>
      apply hinv.of_frame <;> simp [requestExit]
  | ctxStored args outs hcall =>
      cases hdir : args.direction <;> apply hinv.of_frame <;>
        simp [storeCtx, goto, Covered, Call.pastBusyCheck, Call.hasSubmitted]
  | streamingCleared args outs hcall | streamingSet args outs hcall
  | callbackInstalled args outs hcall | created args outs hcall =>
      apply hinv.of_frame <;>
        simp [goto, installCallback, Covered, hcall, Call.pastBusyCheck,
          Call.hasSubmitted]
  | submitRefused args outs index hcall =>
      apply hinv.of_frame
      · exact id
      · simp [finish, Call.pastBusyCheck]
      · simp [finish, Call.hasSubmitted]
      · exact id
      · intro _ k hcovered
        exact hcovered.imp_left fun hflight => by simpa [finish] using hflight
  | transferFreed wasStarted outs1 outs2 result1 result2 index pc hcall hpc =>
      apply hinv.of_frame
      · exact id
      · simp [goto, Call.pastBusyCheck]
      · simp [goto, Call.hasSubmitted]
      · exact id
      · intro _ k hcovered
        exact hcovered.imp_left fun hflight => by simpa [goto] using hflight
  | entered call hcall =>
      apply hinv.of_frame <;> simp [goto, Covered]
  | _ =>
      apply hinv.of_frame <;>
        simp_all [goto, finish, Covered, Call.pastBusyCheck, Call.hasSubmitted]

theorem CoverageInvariant.isLocal :
    LocalInvariant (fun _ _ => True)
      (CoverageInvariant : Device Callback Ctx → Prop) where
  fresh := by
    constructor
    · intro _
      rfl
    · intro _ index hrequired
      simp [Required, fresh, Call.hasSubmitted] at hrequired
  keep := fun _ _ _ _ hstep hinv => hinv.keep (move_of_localStep hstep)

end Device

theorem Device.flags_of_hackrfIsStreaming {dev : Device Callback Ctx}
    (hstreaming : dev.hackrfIsStreaming = .true) :
    dev.transferThreadStarted = true ∧ dev.streaming = true ∧
      dev.doExit = false := by
  unfold Device.hackrfIsStreaming at hstreaming
  split_ifs at hstreaming with hflags
  exact hflags

/-- In every reachable state of the machine, whatever the interleaving, a
device for which `hackrf_is_streaming` would return `HACKRF_TRUE` has all its
transfers in flight or in the hands of their completion handler. -/
theorem hackrfIsStreaming_covered [DecidableEq D]
    {events : List (Event D Callback Ctx)} {d : D} {dev : Device Callback Ctx}
    (hdev : deviceAfter events d = some dev)
    (hstreaming : dev.hackrfIsStreaming = .true) (index : TransferIndex) :
    dev.Covered index := by
  have hinv := Device.CoverageInvariant.isLocal.of_reachable hdev
  have hflags := Device.flags_of_hackrfIsStreaming hstreaming
  exact hinv.covered hflags.2.2 index (.inl hflags.1)

theorem hackrfIsStreaming_covered_twoDevices :
    let started : StartOutcomes := ⟨true, fun _ => true, true⟩
    let events : List (Event Bool ℕ ℕ) :=
      [.open false, .enter false (.startRx 0 0 started)] ++ apiSteps false 13 ++
      [.open true, .enter true (.startTx 1 1 started)] ++ apiSteps true 13 ++
      [.thread false false,
        .deliver (.transferThread false) true 2 .completed]
    ∃ dev, deviceAfter events true = some dev ∧
      dev.hackrfIsStreaming = .true ∧ ∀ index, dev.Covered index := by
  intro started events
  have hsome : (deviceAfter events true).map Device.hackrfIsStreaming =
      some .true := by decide
  obtain ⟨dev, hdev, hstreaming⟩ := Option.map_eq_some_iff.mp hsome
  exact ⟨dev, hdev, hstreaming,
    fun index => hackrfIsStreaming_covered hdev hstreaming index⟩

end HackRF.Streaming
