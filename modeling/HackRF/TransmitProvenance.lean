import HackRF.CallbackDiscipline

/-!
# What a transmission carries

`hackrf_libusb_transfer_callback` resubmits a buffer only after the user
callback has filled it, but `prepare_transfers` submits all four buffers as
they are.  A transmit session therefore begins with four transfers that its
callback has never seen, whatever the buffers held before: this happens in
every session that submits anything at all.
-/

namespace HackRF.Streaming

variable {D Callback Ctx : Type*}

/-- The transfer that an action hands to `libusb_submit_transfer`, with the
endpoint it carries then. -/
def Device.submits (dev : Device Callback Ctx) :
    Action Callback Ctx → Option (TransferIndex × Endpoint)
  | .api =>
      match dev.call with
      | .start args _ (.submit index) => some (index, args.direction.endpoint)
      | _ => none
  | .handler _ =>
      match dev.handler with
      | some handler =>
          if handler.phase = .resubmit then
            some (handler.index, (dev.transfers handler.index).endpoint)
          else none
      | none => none
  | _ => none

/-- An OUT transfer is submitted only with a buffer that the callback of the
latest session has been called on since that session began. -/
def Device.provided (dev : Device Callback Ctx)
    (action : Action Callback Ctx) : Bool :=
  (dev.submits action).all fun submission =>
    submission.2 ≠ .bulkOut || dev.served submission.1

/-- The condition on a run: no `hackrf_start_tx` gets as far as submitting a
transfer. -/
def Device.withoutTransmission (dev : Device Callback Ctx)
    (action : Action Callback Ctx) : Bool :=
  match action, dev.call with
  | .api, .start args _ (.submit _) => args.direction ≠ .tx
  | _, _ => true

/-- Until a session has assigned its callback, it has served no buffer. -/
structure Device.UnservedInvariant (dev : Device Callback Ctx) : Prop where
  bound : dev.installed ≤ dev.sessions
  pending : dev.call.beforeInstall = true →
    dev.installed < dev.sessions ∧ ∀ index, dev.served index = false

def Device.NoOutEndpoint (dev : Device Callback Ctx) : Prop :=
  ∀ index, (dev.transfers index).endpoint ≠ .bulkOut

namespace Device

variable {dev dev' dev₁ : Device Callback Ctx}

theorem UnservedInvariant.of_frame (hinv : dev.UnservedInvariant)
    (hsessions : dev'.sessions = dev.sessions)
    (hinstalled : dev'.installed = dev.installed)
    (hserved : dev'.served = dev.served)
    (hbefore : dev'.call.beforeInstall = true →
      dev.call.beforeInstall = true) :
    dev'.UnservedInvariant where
  bound := by
    rw [hsessions, hinstalled]
    exact hinv.bound
  pending := fun hcall => by
    rw [hsessions, hinstalled, hserved]
    exact hinv.pending (hbefore hcall)

theorem UnservedInvariant.of_stopFrame (hinv : dev.UnservedInvariant)
    (hframe : StopFrame dev dev₁)
    (hbefore : dev'.call.beforeInstall = false)
    (hsame : dev'.sessions = dev₁.sessions ∧
      dev'.installed = dev₁.installed ∧ dev'.served = dev₁.served) :
    dev'.UnservedInvariant := by
  obtain ⟨hsessions, hinstalled, hserved⟩ := hsame
  apply hinv.of_frame
  · exact hsessions.trans hframe.sessions
  · exact hinstalled.trans hframe.installed
  · exact hserved.trans hframe.served
  · simp [hbefore]

theorem UnservedInvariant.keep {action : Action Callback Ctx}
    (hmove : dev.Move action dev') (hinv : dev.UnservedInvariant) :
    dev'.UnservedInvariant := by
  cases hmove with
  | begun args outs _ _ =>
      exact ⟨hinv.bound.trans (Nat.le_succ _),
        fun _ => ⟨Nat.lt_succ_of_le hinv.bound, fun _ => rfl⟩⟩
  | callbackInstalled args outs hcall =>
      exact ⟨le_rfl, by simp [goto, Call.beforeInstall]⟩
  | callbackCalled ok handler callback hhandler hphase =>
      refine ⟨hinv.bound, fun hcall => ?_⟩
      obtain ⟨hlt, hserved⟩ := hinv.pending hcall
      refine ⟨hlt, fun index => ?_⟩
      have hne : dev.installed ≠ dev.sessions := hlt.ne
      simpa [hne] using hserved index
  | stopAt outs pc next dev₁ _ hstep =>
      exact hinv.of_stopFrame (stopFrame_of_stopStep hstep) rfl
        ⟨rfl, rfl, rfl⟩
  | stopDone outs pc code dev₁ _ hstep =>
      exact hinv.of_stopFrame (stopFrame_of_stopStep hstep) rfl
        ⟨rfl, rfl, rfl⟩
  | closeStopRx wasStarted outs1 outs2 pc next dev₁ _ hstep =>
      exact hinv.of_stopFrame (stopFrame_of_stopStep hstep) rfl
        ⟨rfl, rfl, rfl⟩
  | closeStopTx wasStarted outs1 outs2 result1 pc next dev₁ _ hstep =>
      exact hinv.of_stopFrame (stopFrame_of_stopStep hstep) rfl
        ⟨rfl, rfl, rfl⟩
  | entered call hcall =>
      apply hinv.of_frame <;> simp [goto]
  | ctxStored args outs hcall =>
      cases hdir : args.direction <;> apply hinv.of_frame <;>
        simp [storeCtx, goto, Call.beforeInstall]
  | submitted args outs index pc hcall =>
      apply hinv.of_frame
      · rfl
      · rfl
      · rfl
      · simp [hcall, Call.beforeInstall]
  | submitRefused args outs index hcall =>
      apply hinv.of_frame
      · rfl
      · rfl
      · rfl
      · simp [finish, Call.beforeInstall]
  | transferFreed wasStarted outs1 outs2 result1 result2 index pc hcall hpc =>
      apply hinv.of_frame
      · rfl
      · rfl
      · rfl
      · simp [goto, Call.beforeInstall]
  | delivered index status =>
      exact ⟨hinv.bound, hinv.pending⟩
  | resubmitted handler =>
      exact ⟨hinv.bound, hinv.pending⟩
  | _ =>
      apply hinv.of_frame <;>
        simp_all [goto, finish, requestExit, Call.beforeInstall]

theorem NoOutEndpoint.keep {action : Action Callback Ctx}
    (hwithout : dev.withoutTransmission action = true)
    (hmove : dev.Move action dev') (hinv : dev.NoOutEndpoint) :
    dev'.NoOutEndpoint := by
  have hrx : ∀ {args : StartCall Callback Ctx} {outs index},
      action = .api → dev.call = .start args outs (.submit index) →
        args.direction.endpoint ≠ .bulkOut := by
    intro args outs index haction hcall
    subst haction
    have hdirection : args.direction ≠ .tx := by
      simpa [withoutTransmission, hcall] using hwithout
    cases hdir : args.direction with
    | rx => simp [Direction.endpoint]
    | tx => exact absurd hdir hdirection
  cases hmove with
  | submitRefused args outs index hcall =>
      intro k
      have hne := hrx rfl hcall
      by_cases hk : k = index
      · simpa [finish, hk] using hne
      · simpa [finish, hk] using hinv k
  | submitted args outs index pc hcall =>
      intro k
      have hne := hrx rfl hcall
      by_cases hk : k = index
      · simpa [goto, hk] using hne
      · simpa [goto, hk] using hinv k
  | stopAt outs pc next dev₁ _ hstep | stopDone outs pc code dev₁ _ hstep
  | closeStopRx wasStarted outs1 outs2 pc next dev₁ _ hstep
  | closeStopTx wasStarted outs1 outs2 result1 pc next dev₁ _ hstep =>
      intro k
      have hframe := stopFrame_of_stopStep hstep
      simpa [goto, finish, hframe.endpoint] using hinv k
  | ctxStored args outs hcall =>
      cases hdir : args.direction <;> exact hinv
  | transferFreed | delivered | resubmitted =>
      intro k
      simpa [goto] using hinv k
  | _ => exact hinv

/-- As long as no transfer carries the OUT endpoint, an action keeps the rule
exactly if it is not the submission of a transmit session. -/
theorem withoutTransmission_iff_provided
    (hunserved : dev.UnservedInvariant) (hnoOut : dev.NoOutEndpoint)
    (action : Action Callback Ctx) :
    dev.withoutTransmission action = true ↔ dev.provided action = true := by
  unfold provided
  cases action with
  | api =>
      cases hcall : dev.call with
      | start args outs pc =>
          cases pc with
          | submit index =>
              have hserved : dev.served index = false :=
                (hunserved.pending
                  (by simp [hcall, Call.beforeInstall])).2 index
              cases hdir : args.direction <;>
                simp [withoutTransmission, submits, hcall, hdir,
                  Direction.endpoint, hserved]
          | _ => simp [withoutTransmission, submits, hcall]
      | _ => simp [withoutTransmission, submits, hcall]
  | handler ok =>
      cases hhandler : dev.handler with
      | none => simp [withoutTransmission, submits, hhandler]
      | some handler =>
          by_cases hphase : handler.phase = .resubmit
          · simp [withoutTransmission, submits, hhandler, hphase,
              hnoOut handler.index]
          · simp [withoutTransmission, submits, hhandler, hphase]
  | _ => simp [withoutTransmission, submits]

end Device

theorem Device.UnservedInvariant.isLocal :
    LocalInvariant (fun _ _ => True)
      (Device.UnservedInvariant : Device Callback Ctx → Prop) where
  fresh := ⟨le_rfl, by simp [Device.fresh, Call.beforeInstall]⟩
  keep := fun _ _ _ _ hstep hinv => hinv.keep (Device.move_of_localStep hstep)

/-- All four initial submissions of a transmit session carry buffers which its
callback has not been called on, in every reachable state. -/
theorem initial_submissions_unserved [DecidableEq D]
    {events : List (Event D Callback Ctx)} {d : D} {dev : Device Callback Ctx}
    (hdev : deviceAfter events d = some dev)
    {args : StartCall Callback Ctx} {outs : StartOutcomes}
    {index : TransferIndex}
    (hcall : dev.call = .start args outs (.submit index)) :
    dev.served index = false := by
  have hinv := Device.UnservedInvariant.isLocal.of_reachable hdev
  exact (hinv.pending (by simp [hcall, Call.beforeInstall])).2 index

/-- A run submits OUT transfers only with buffers filled in the session exactly
if no `hackrf_start_tx` of the run gets as far as submitting a transfer. -/
theorem provided_iff_withoutTransmission [DecidableEq D]
    (events : List (Event D Callback Ctx)) :
    EventRun.Along State.step
        (OnDevice fun dev action => dev.provided action = true)
        State.initial events ↔
      EventRun.Along State.step
        (OnDevice fun dev action => dev.withoutTransmission action = true)
        State.initial events := by
  symm
  apply EventRun.along_iff_of_invariant
    (fun state : State D Callback Ctx => ∀ d,
      (state.slots d).Holds fun dev =>
        dev.UnservedInvariant ∧ dev.NoOutEndpoint)
  · intro state event next _ hinv
    unfold OnDevice
    have hslot := hinv event.device
    cases hdev : state.slots event.device with
    | closed result => simp
    | opened dev =>
        rw [hdev] at hslot
        exact Device.withoutTransmission_iff_provided hslot.1 hslot.2
          event.action
  · intro state event next hstep hwithout hinv
    have hlocal : LocalInvariant
        (fun (dev : Device Callback Ctx) action =>
          dev.withoutTransmission action = true)
        (fun dev => dev.UnservedInvariant ∧ dev.NoOutEndpoint) := {
      fresh := ⟨Device.UnservedInvariant.isLocal.fresh,
        fun _ => by simp [Device.fresh]⟩
      keep := fun _ _ _ hC hstep hinv =>
        ⟨hinv.1.keep (Device.move_of_localStep hstep),
          hinv.2.keep hC (Device.move_of_localStep hstep)⟩ }
    exact fun d => hlocal.step hstep hwithout hinv d
  · intro d
    exact trivial

/-- After a receive session the first transmit transfer is accepted by libusb
with the buffer the receive session left. -/
theorem start_tx_sends_unserved_buffer :
    let started : StartOutcomes := ⟨true, fun _ => true, true⟩
    let cancelled (index : TransferIndex) : List (Event Unit ℕ ℕ) :=
      [.deliver (.apiCall ()) () index .cancelled, .handler () true]
    let before : List (Event Unit ℕ ℕ) :=
      [.open (), .enter () (.startRx 0 0 started)] ++ apiSteps () 13 ++
      [.enter () (.stopRx ⟨true, true⟩)] ++ apiSteps () 2 ++
      [.thread () false] ++ apiSteps () 6 ++
      [.enter () (.startTx 1 1 started)] ++
      cancelled 0 ++ cancelled 1 ++ cancelled 2 ++ cancelled 3 ++ apiSteps () 5
    ∃ dev dev', deviceAfter before () = some dev ∧
      dev.submits .api = some (0, .bulkOut) ∧ dev.served 0 = false ∧
      deviceAfter (before ++ [.api ()]) () = some dev' ∧
      (dev'.transfers 0).inFlight = true := by
  intro started cancelled before
  have hbefore : (deviceAfter before ()).map
        (fun dev => (dev.submits .api, dev.served 0)) =
      some (some (0, .bulkOut), false) := by rfl
  have hafter : (deviceAfter (before ++ [.api ()]) ()).map
        (fun dev => (dev.transfers 0).inFlight) = some true := by rfl
  obtain ⟨dev, hdev, heq⟩ := Option.map_eq_some_iff.mp hbefore
  obtain ⟨dev', hdev', hinFlight⟩ := Option.map_eq_some_iff.mp hafter
  obtain ⟨hsubmits, hserved⟩ := Prod.mk.inj heq
  exact ⟨dev, dev', hdev, hsubmits, hserved, hdev', hinFlight⟩

end HackRF.Streaming
