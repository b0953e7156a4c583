import HackRF.StreamingMoves

/-!
# Who may submit and free a transfer

libusb allows a transfer to be submitted or freed only while it is not in
flight.  `kill_transfer_thread` asks for the cancellation of all transfers
after it has joined the only thread that is sure to handle events, and nothing
waits for the cancellations to be delivered.  So the rule is kept by runs in
which a start call and the teardown of `hackrf_close` find nothing of the
earlier sessions outstanding, and it is broken by a close call right after a
stop call.
-/

namespace HackRF.Streaming

variable {D Callback Ctx : Type*}

def Device.Quiescent (dev : Device Callback Ctx) : Prop :=
  (∀ index, (dev.transfers index).inFlight = false) ∧
    dev.handler.isNone = true

instance (dev : Device Callback Ctx) : Decidable dev.Quiescent :=
  inferInstanceAs (Decidable (_ ∧ _))

/-- The condition on a run: nothing is outstanding when a start call passes
its busy check, and when `hackrf_close` has done with its stop calls. -/
def Device.settledBefore (dev : Device Callback Ctx)
    (action : Action Callback Ctx) : Bool :=
  match action, dev.call with
  | .api, .start _ _ .testStarted =>
      dev.transferThreadStarted || dev.Quiescent
  | .api, .close _ _ _ (.usbClose _ _) => dev.Quiescent
  | _, _ => true

/-- `libusb_submit_transfer` and `libusb_free_transfer` are about to be applied
only to transfers that are not in flight. -/
structure Device.OwnsTransfers (dev : Device Callback Ctx) : Prop where
  submit : ∀ args outs index, dev.call = .start args outs (.submit index) →
    (dev.transfers index).inFlight = false
  resubmit : ∀ handler, dev.handler = some handler →
    handler.phase = .resubmit →
      (dev.transfers handler.index).inFlight = false
  free : ∀ wasStarted outs1 outs2 result1 result2 index,
    dev.call = .close wasStarted outs1 outs2
      (.freeTransfer result1 result2 index) →
        (dev.transfers index).inFlight = false

/-- A start call past the busy check is still going to submit the transfer. -/
def Call.willSubmit (index : TransferIndex) : Call Callback Ctx → Bool
  | .start _ _ .clearStreaming => true
  | .start _ _ .clearDoExit => true
  | .start _ _ (.submit reached) => reached ≤ index
  | _ => false

def Call.freeing : Call Callback Ctx → Bool
  | .close _ _ _ (.freeTransfer _ _ _) => true
  | .close _ _ _ (.freeDevice _ _) => true
  | _ => false

structure Device.OwnershipInvariant (dev : Device Callback Ctx) : Prop where
  handled : ∀ handler, dev.handler = some handler →
    (dev.transfers handler.index).inFlight = false
  starting : ∀ index, dev.call.willSubmit index = true →
    (dev.transfers index).inFlight = false ∧
      ∀ handler, dev.handler = some handler → handler.index ≠ index
  closing : dev.call.freeing = true → dev.Quiescent

@[simp] theorem ApiCall.entry_willSubmit (index : TransferIndex)
    (call : ApiCall Callback Ctx) (dev : Device Callback Ctx) :
    (call.entry dev).willSubmit index = false := by
  cases call <;> rfl

@[simp] theorem ApiCall.entry_freeing
    (call : ApiCall Callback Ctx) (dev : Device Callback Ctx) :
    (call.entry dev).freeing = false := by
  cases call <;> rfl

namespace Device

variable {dev dev' dev₁ : Device Callback Ctx}

/-- A step keeps the invariant if it leaves the handler and what is in flight
alone and lets the call in progress claim no more than before. -/
theorem OwnershipInvariant.of_frame (hinv : dev.OwnershipInvariant)
    (hhandler : dev'.handler = dev.handler)
    (hinFlight : ∀ index,
      (dev'.transfers index).inFlight = (dev.transfers index).inFlight)
    (hsubmit : ∀ index, dev'.call.willSubmit index = true →
      dev.call.willSubmit index = true)
    (hfreeing : dev'.call.freeing = true → dev.call.freeing = true) :
    dev'.OwnershipInvariant where
  handled := fun handler hsome => by
    rw [hinFlight]
    exact hinv.handled handler (hhandler ▸ hsome)
  starting := fun index hwill => by
    rw [hinFlight, hhandler]
    exact hinv.starting index (hsubmit index hwill)
  closing := fun hfree => by
    obtain ⟨hflight, hnone⟩ := hinv.closing (hfreeing hfree)
    exact ⟨fun index => (hinFlight index).trans (hflight index),
      hhandler ▸ hnone⟩

theorem OwnershipInvariant.of_stopFrame (hinv : dev.OwnershipInvariant)
    (hframe : StopFrame dev dev₁)
    (hsubmit : ∀ index, dev'.call.willSubmit index = false)
    (hfreeing : dev'.call.freeing = false)
    (hsame : dev'.transfers = dev₁.transfers ∧
      dev'.handler = dev₁.handler) :
    dev'.OwnershipInvariant := by
  apply hinv.of_frame
  · exact hsame.2.trans hframe.handler
  · intro index
    rw [hsame.1, hframe.inFlight]
  · simp [hsubmit]
  · simp [hfreeing]

theorem Quiescent.ownershipInvariant (hquiet : dev.Quiescent) :
    dev.OwnershipInvariant where
  handled := fun handler hsome => by simpa [hsome] using hquiet.2
  starting := fun index _ =>
    ⟨hquiet.1 index, fun handler hsome => by simpa [hsome] using hquiet.2⟩
  closing := fun _ => hquiet

theorem OwnershipInvariant.submitted {args : StartCall Callback Ctx}
    {outs : StartOutcomes} {index : TransferIndex} {pc : StartPc}
    (hinv : dev.OwnershipInvariant)
    (hcall : dev.call = .start args outs (.submit index))
    (hpc : (∃ next, index.next = some next ∧ pc = .submit next) ∨
      (index.next = none ∧ pc = .setStreaming)) :
    (((dev.setEndpoint index args.direction.endpoint).putInFlight index
      (some (dev.currentSession args))).goto
        (.start args outs pc)).OwnershipInvariant := by
  have hstarting : ∀ k, index ≤ k → (dev.transfers k).inFlight = false ∧
      ∀ handler, dev.handler = some handler → handler.index ≠ k := by
    intro k hle
    exact hinv.starting k (by simpa [hcall, Call.willSubmit] using hle)
  constructor
  · intro handler hsome
    have hne : handler.index ≠ index :=
      (hstarting index le_rfl).2 handler hsome
    have hold := hinv.handled handler hsome
    simpa [goto, hne] using hold
  · intro k hwill
    have hlt : index < k := by
      rcases hpc with ⟨next, hnext, rfl⟩ | ⟨_, rfl⟩
      · have hle : next ≤ k := by
          simpa [goto, Call.willSubmit] using hwill
        have hindex : index < next :=
          (TransferIndex.lt_of_next hnext index).mpr (.inr rfl)
        exact lt_of_lt_of_le hindex hle
      · simp [goto, Call.willSubmit] at hwill
    obtain ⟨hflight, hnone⟩ := hstarting k hlt.le
    refine ⟨?_, hnone⟩
    simpa [goto, hlt.ne'] using hflight
  · simp [goto, Call.freeing]

theorem OwnershipInvariant.delivered {index : TransferIndex}
    (hinv : dev.OwnershipInvariant)
    (hinFlight : (dev.transfers index).inFlight = true)
    (handler : Handler Callback) (hindex : handler.index = index) :
    ({ dev.takeOut index with
      handler := some handler } : Device Callback Ctx).OwnershipInvariant := by
  constructor
  · intro other hsome
    simp only [Option.some.injEq] at hsome
    simp [← hsome, hindex]
  · intro k hwill
    obtain ⟨hflight, _⟩ := hinv.starting k hwill
    have hne : k ≠ index := by
      rintro rfl
      rw [hinFlight] at hflight
      contradiction
    refine ⟨by simpa [hne] using hflight, ?_⟩
    intro other hsome
    simp only [Option.some.injEq] at hsome
    rw [← hsome, hindex]
    exact hne.symm
  · intro hfreeing
    have hquiet := hinv.closing hfreeing
    rw [hquiet.1 index] at hinFlight
    contradiction

theorem OwnershipInvariant.resubmitted {handler : Handler Callback}
    (hinv : dev.OwnershipInvariant) (hhandler : dev.handler = some handler) :
    ({ dev.putInFlight handler.index handler.session with
      handler := none } : Device Callback Ctx).OwnershipInvariant := by
  constructor
  · simp
  · intro k hwill
    obtain ⟨hflight, hne⟩ := hinv.starting k hwill
    have hk := hne handler hhandler
    exact ⟨by simpa [hk.symm] using hflight, by simp⟩
  · intro hfreeing
    have hquiet := hinv.closing hfreeing
    simpa [hhandler] using hquiet.2

theorem OwnershipInvariant.handlerMoved {handler after : Handler Callback}
    (hinv : dev.OwnershipInvariant) (hhandler : dev.handler = some handler)
    (hafter : dev'.handler = some after)
    (hindex : after.index = handler.index)
    (htransfers : dev'.transfers = dev.transfers)
    (hcall : dev'.call = dev.call) :
    dev'.OwnershipInvariant := by
  constructor
  · intro other hsome
    rw [hafter, Option.some.injEq] at hsome
    rw [htransfers, ← hsome, hindex]
    exact hinv.handled handler hhandler
  · intro k hwill
    rw [hcall] at hwill
    obtain ⟨hflight, hne⟩ := hinv.starting k hwill
    refine ⟨htransfers ▸ hflight, ?_⟩
    intro other hsome
    rw [hafter, Option.some.injEq] at hsome
    rw [← hsome, hindex]
    exact hne handler hhandler
  · intro hfreeing
    rw [hcall] at hfreeing
    have hquiet := hinv.closing hfreeing
    simpa [hhandler] using hquiet.2

theorem OwnershipInvariant.keep {action : Action Callback Ctx}
    (hsettled : dev.settledBefore action = true)
    (hmove : dev.Move action dev') (hinv : dev.OwnershipInvariant) :
    dev'.OwnershipInvariant := by
  cases hmove with
  | begun args outs hcall hstarted =>
      have hquiet : dev.Quiescent := by
        simpa [settledBefore, hcall, hstarted] using hsettled
      exact Quiescent.ownershipInvariant hquiet
  | usbClosed wasStarted outs1 outs2 result1 result2 hcall =>
      have hquiet : dev.Quiescent := by
        simpa [settledBefore, hcall] using hsettled
      exact Quiescent.ownershipInvariant hquiet
  | submitted args outs index pc hcall _ _ hpc =>
      exact hinv.submitted hcall hpc
  | delivered index status hinFlight _ =>
      exact hinv.delivered hinFlight _ rfl
  | callbackCalled ok handler callback hhandler =>
      exact hinv.handlerMoved hhandler rfl rfl rfl rfl
  | resubmitted handler hhandler => exact hinv.resubmitted hhandler
  | resubmitRefused ok handler hhandler =>
      exact hinv.handlerMoved hhandler rfl rfl rfl rfl
  | exitRequested ok handler hhandler =>
      constructor
      · simp [requestExit]
      · intro k hwill
        exact ⟨(hinv.starting k hwill).1, by simp⟩
      · intro hfreeing
        exact ⟨(hinv.closing hfreeing).1, rfl⟩
  | stopAt outs pc next dev₁ _ hstep =>
      exact hinv.of_stopFrame (stopFrame_of_stopStep hstep)
        (fun _ => rfl) rfl ⟨rfl, rfl⟩
  | stopDone outs pc code dev₁ _ hstep =>
      exact hinv.of_stopFrame (stopFrame_of_stopStep hstep)
        (fun _ => rfl) rfl ⟨rfl, rfl⟩
  | closeStopRx wasStarted outs1 outs2 pc next dev₁ _ hstep =>
      refine hinv.of_stopFrame (stopFrame_of_stopStep hstep)
        (fun _ => rfl) ?_ ⟨rfl, rfl⟩
      cases next <;> rfl
  | closeStopTx wasStarted outs1 outs2 result1 pc next dev₁ _ hstep =>
      refine hinv.of_stopFrame (stopFrame_of_stopStep hstep)
        (fun _ => rfl) ?_ ⟨rfl, rfl⟩
      cases next <;> rfl
  | entered call hcall =>
      apply hinv.of_frame <;> simp [goto]
  | ctxStored args outs hcall =>
      cases hdir : args.direction <;> apply hinv.of_frame <;>
        simp [storeCtx, goto, Call.willSubmit, Call.freeing]
  | submitRefused args outs index hcall =>
      apply hinv.of_frame
      · rfl
      · simp [finish]
      · simp [finish, Call.willSubmit]
      · simp [finish, Call.freeing]
  | transferFreed wasStarted outs1 outs2 result1 result2 index pc hcall hpc =>
      apply hinv.of_frame
      · rfl
      · simp [goto]
      · simp [goto, Call.willSubmit]
      · simp [hcall, Call.freeing]
  | _ =>
      apply hinv.of_frame <;>
        simp_all [goto, finish, installCallback, Call.willSubmit, Call.freeing]

theorem OwnershipInvariant.isLocal :
    LocalInvariant (fun dev action => dev.settledBefore action = true)
      (OwnershipInvariant : Device Callback Ctx → Prop) where
  fresh := Quiescent.ownershipInvariant ⟨fun _ => rfl, rfl⟩
  keep := fun _ _ _ hsettled hstep hinv =>
    hinv.keep hsettled (move_of_localStep hstep)

theorem OwnershipInvariant.ownsTransfers (hinv : dev.OwnershipInvariant) :
    dev.OwnsTransfers where
  submit := fun args outs index hcall =>
    (hinv.starting index (by simp [hcall, Call.willSubmit])).1
  resubmit := fun handler hhandler _ => hinv.handled handler hhandler
  free := fun wasStarted outs1 outs2 result1 result2 index hcall =>
    (hinv.closing (by simp [hcall, Call.freeing])).1 index

end Device

/-- In every run whose start calls and teardowns find nothing outstanding,
transfers are submitted and freed only while they are not in flight. -/
theorem ownsTransfers_of_settled [DecidableEq D]
    {events : List (Event D Callback Ctx)} {d : D} {dev : Device Callback Ctx}
    (hsettled : EventRun.Along State.step
      (OnDevice fun dev action => dev.settledBefore action = true)
      State.initial events)
    (hdev : deviceAfter events d = some dev) :
    dev.OwnsTransfers :=
  (Device.OwnershipInvariant.isLocal.of_along hsettled hdev).ownsTransfers

/-- Starting, stopping, collecting the four cancellations inside the next
start call's mode request, and starting again. -/
theorem ownsTransfers_of_settled_restart :
    let started : StartOutcomes := ⟨true, fun _ => true, true⟩
    let cancelled (index : TransferIndex) : List (Event Unit ℕ ℕ) :=
      [.deliver (.apiCall ()) () index .cancelled, .handler () true]
    let events : List (Event Unit ℕ ℕ) :=
      [.open (), .enter () (.startRx 0 0 started)] ++ apiSteps () 13 ++
      [.enter () (.stopRx ⟨true, true⟩)] ++ apiSteps () 2 ++
      [.thread () false] ++ apiSteps () 6 ++
      [.enter () (.startRx 1 1 started)] ++
      cancelled 0 ++ cancelled 1 ++ cancelled 2 ++ cancelled 3 ++ apiSteps () 8
    ∃ dev, deviceAfter events () = some dev ∧ dev.OwnsTransfers := by
  intro started cancelled events
  obtain ⟨dev, hdev⟩ : ∃ dev, deviceAfter events () = some dev :=
    Option.isSome_iff_exists.mp (by decide)
  exact ⟨dev, hdev, ownsTransfers_of_settled (by decide) hdev⟩

/-- A receiving device is stopped, and closed before any of the cancellations
has been delivered: `free_transfers` frees a transfer in flight. -/
theorem stop_close_frees_inFlight :
    let events : List (Event Unit ℕ ℕ) :=
      [.open (), .enter () (.startRx 0 0 ⟨true, fun _ => true, true⟩)] ++
        apiSteps () 13 ++
      [.enter () (.stopRx ⟨true, true⟩)] ++ apiSteps () 2 ++
      [.thread () false] ++ apiSteps () 6 ++
      [.enter () (.close ⟨true, true⟩ ⟨true, true⟩)] ++ apiSteps () 7
    ∃ dev, deviceAfter events () = some dev ∧ ¬dev.OwnsTransfers := by
  intro events
  have hsome : (deviceAfter events ()).map
        (fun dev => (dev.call, (dev.transfers 0).inFlight)) =
      some (.close false ⟨true, true⟩ ⟨true, true⟩
        (.freeTransfer .success .success 0), true) := by rfl
  obtain ⟨dev, hdev, heq⟩ := Option.map_eq_some_iff.mp hsome
  obtain ⟨hcall, hinFlight⟩ := Prod.mk.inj heq
  refine ⟨dev, hdev, fun howns => ?_⟩
  have hfree := howns.free _ _ _ _ _ _ hcall
  rw [hinFlight] at hfree
  contradiction

end HackRF.Streaming
