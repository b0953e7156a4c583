import HackRF.StreamingMachine

/-!
# What one local step does

`Device.Move` lists the effects a local step can have on an open device, with
the guard of each.  Every invariant of the streaming machine is proved by
cases on it, so that no later proof unfolds the step functions again.
-/

namespace HackRF.Streaming

variable {Callback Ctx : Type*}

namespace Device

/-! ## Fields of an updated transfer -/

section Fields

variable (dev : Device Callback Ctx) (index k : TransferIndex)

theorem setTransfer_transfers (transfer : Transfer Callback) :
    (dev.setTransfer index transfer).transfers k =
      if k = index then transfer else dev.transfers k := by
  simp [setTransfer, Function.update_apply]

theorem setTransfer_field {α : Type*} (field : Transfer Callback → α)
    {transfer : Transfer Callback}
    (hfield : field transfer = field (dev.transfers index)) :
    field ((dev.setTransfer index transfer).transfers k) =
      field (dev.transfers k) := by
  rw [setTransfer_transfers]
  split_ifs with hk
  · rw [hfield, hk]
  · rfl

@[simp] theorem setEndpoint_inFlight (endpoint : Endpoint) :
    ((dev.setEndpoint index endpoint).transfers k).inFlight =
      (dev.transfers k).inFlight :=
  dev.setTransfer_field index k Transfer.inFlight rfl

@[simp] theorem setEndpoint_session (endpoint : Endpoint) :
    ((dev.setEndpoint index endpoint).transfers k).session =
      (dev.transfers k).session :=
  dev.setTransfer_field index k Transfer.session rfl

@[simp] theorem setEndpoint_endpoint (endpoint : Endpoint) :
    ((dev.setEndpoint index endpoint).transfers k).endpoint =
      if k = index then endpoint else (dev.transfers k).endpoint := by
  rw [setEndpoint, setTransfer_transfers]
  split_ifs <;> rfl

@[simp] theorem putInFlight_inFlight (session : Option (Session Callback)) :
    ((dev.putInFlight index session).transfers k).inFlight =
      if k = index then true else (dev.transfers k).inFlight := by
  rw [putInFlight, setTransfer_transfers]
  split_ifs <;> rfl

@[simp] theorem putInFlight_session (session : Option (Session Callback)) :
    ((dev.putInFlight index session).transfers k).session =
      if k = index then session else (dev.transfers k).session := by
  rw [putInFlight, setTransfer_transfers]
  split_ifs <;> rfl

@[simp] theorem putInFlight_endpoint (session : Option (Session Callback)) :
    ((dev.putInFlight index session).transfers k).endpoint =
      (dev.transfers k).endpoint :=
  dev.setTransfer_field index k Transfer.endpoint rfl

@[simp] theorem cancelTransfer_inFlight :
    ((dev.cancelTransfer index).transfers k).inFlight =
      (dev.transfers k).inFlight :=
  dev.setTransfer_field index k Transfer.inFlight rfl

@[simp] theorem cancelTransfer_session :
    ((dev.cancelTransfer index).transfers k).session =
      (dev.transfers k).session :=
  dev.setTransfer_field index k Transfer.session rfl

@[simp] theorem cancelTransfer_endpoint :
    ((dev.cancelTransfer index).transfers k).endpoint =
      (dev.transfers k).endpoint :=
  dev.setTransfer_field index k Transfer.endpoint rfl

@[simp] theorem freeTransfer_inFlight :
    ((dev.freeTransfer index).transfers k).inFlight =
      (dev.transfers k).inFlight :=
  dev.setTransfer_field index k Transfer.inFlight rfl

@[simp] theorem freeTransfer_session :
    ((dev.freeTransfer index).transfers k).session =
      (dev.transfers k).session :=
  dev.setTransfer_field index k Transfer.session rfl

@[simp] theorem freeTransfer_endpoint :
    ((dev.freeTransfer index).transfers k).endpoint =
      (dev.transfers k).endpoint :=
  dev.setTransfer_field index k Transfer.endpoint rfl

def takeOut : Device Callback Ctx :=
  dev.setTransfer index { dev.transfers index with inFlight := false }

@[simp] theorem takeOut_inFlight :
    ((dev.takeOut index).transfers k).inFlight =
      if k = index then false else (dev.transfers k).inFlight := by
  rw [takeOut, setTransfer_transfers]
  split_ifs <;> rfl

@[simp] theorem takeOut_session :
    ((dev.takeOut index).transfers k).session =
      (dev.transfers k).session :=
  dev.setTransfer_field index k Transfer.session rfl

@[simp] theorem takeOut_endpoint :
    ((dev.takeOut index).transfers k).endpoint =
      (dev.transfers k).endpoint :=
  dev.setTransfer_field index k Transfer.endpoint rfl

end Fields

/-! ## The effects of the local steps -/

/-- The effects of a local step on an open device.  The three constructors for
statements of a stop call leave the effect of the statement to `stopStep`,
which has a frame lemma of its own. -/
inductive Move (dev : Device Callback Ctx) :
    Action Callback Ctx → Device Callback Ctx → Prop where
  | entered (call : ApiCall Callback Ctx) (hcall : dev.call = .idle) :
      Move dev (.enter call) (dev.goto (call.entry dev))
  | controlDone (result : HackrfError) (hcall : dev.call = .control result) :
      Move dev .api (dev.finish result)
  | modeRefused (args : StartCall Callback Ctx) (outs : StartOutcomes)
      (hcall : dev.call = .start args outs .modeRequest)
      (hmode : outs.mode = false) :
      Move dev .api (dev.finish .libusb)
  | modeSet (args : StartCall Callback Ctx) (outs : StartOutcomes)
      (hcall : dev.call = .start args outs .modeRequest)
      (hmode : outs.mode = true) :
      Move dev .api
        ({ dev with mode := some args.direction.mode }.goto
          (.start args outs .storeCtx))
  | ctxStored (args : StartCall Callback Ctx) (outs : StartOutcomes)
      (hcall : dev.call = .start args outs .storeCtx) :
      Move dev .api
        ((dev.storeCtx args.direction args.ctx).goto
          (.start args outs .testStarted))
  | busy (args : StartCall Callback Ctx) (outs : StartOutcomes)
      (hcall : dev.call = .start args outs .testStarted)
      (hstarted : dev.transferThreadStarted = true) :
      Move dev .api (dev.finish .busy)
  | begun (args : StartCall Callback Ctx) (outs : StartOutcomes)
      (hcall : dev.call = .start args outs .testStarted)
      (hstarted : dev.transferThreadStarted = false) :
      Move dev .api (dev.beginSession.goto (.start args outs .clearStreaming))
  | streamingCleared (args : StartCall Callback Ctx) (outs : StartOutcomes)
      (hcall : dev.call = .start args outs .clearStreaming) :
      Move dev .api
        ({ dev with streaming := false }.goto (.start args outs .clearDoExit))
  | doExitCleared (args : StartCall Callback Ctx) (outs : StartOutcomes)
      (hcall : dev.call = .start args outs .clearDoExit) :
      Move dev .api
        ({ dev with doExit := false }.goto (.start args outs (.submit 0)))
  | submitRefused (args : StartCall Callback Ctx) (outs : StartOutcomes)
      (index : TransferIndex)
      (hcall : dev.call = .start args outs (.submit index))
      (hrefused : (dev.transfers index).inFlight = true ∨
        outs.submit index = false) :
      Move dev .api
        ((dev.setEndpoint index args.direction.endpoint).finish .libusb)
  | submitted (args : StartCall Callback Ctx) (outs : StartOutcomes)
      (index : TransferIndex) (pc : StartPc)
      (hcall : dev.call = .start args outs (.submit index))
      (hfree : (dev.transfers index).inFlight = false)
      (haccepted : outs.submit index = true)
      (hpc : (∃ next, index.next = some next ∧ pc = .submit next) ∨
        (index.next = none ∧ pc = .setStreaming)) :
      Move dev .api
        (((dev.setEndpoint index args.direction.endpoint).putInFlight index
          (some (dev.currentSession args))).goto (.start args outs pc))
  | streamingSet (args : StartCall Callback Ctx) (outs : StartOutcomes)
      (hcall : dev.call = .start args outs .setStreaming) :
      Move dev .api
        ({ dev with streaming := true }.goto (.start args outs .setCallback))
  | callbackInstalled (args : StartCall Callback Ctx) (outs : StartOutcomes)
      (hcall : dev.call = .start args outs .setCallback) :
      Move dev .api
        ((dev.installCallback args.callback).goto
          (.start args outs .createThread))
  | createRefused (args : StartCall Callback Ctx) (outs : StartOutcomes)
      (hcall : dev.call = .start args outs .createThread)
      (hcreate : outs.create = false) :
      Move dev .api (dev.finish .thread)
  | created (args : StartCall Callback Ctx) (outs : StartOutcomes)
      (hcall : dev.call = .start args outs .createThread)
      (hcreate : outs.create = true) :
      Move dev .api
        ({ dev with transferThread := .atTest }.goto
          (.start args outs .setStarted))
  | startedSet (args : StartCall Callback Ctx) (outs : StartOutcomes)
      (hcall : dev.call = .start args outs .setStarted) :
      Move dev .api
        ({ dev with transferThreadStarted := true }.finish .success)
  | stopAt (outs : StopOutcomes) (pc next : StopPc)
      (dev₁ : Device Callback Ctx)
      (hcall : dev.call = .stop outs pc)
      (hstep : dev.stopStep outs pc = some (.at next, dev₁)) :
      Move dev .api (dev₁.goto (.stop outs next))
  | stopDone (outs : StopOutcomes) (pc : StopPc) (code : HackrfError)
      (dev₁ : Device Callback Ctx)
      (hcall : dev.call = .stop outs pc)
      (hstep : dev.stopStep outs pc = some (.done code, dev₁)) :
      Move dev .api (dev₁.finish code)
  | closeStopRx (wasStarted : Bool) (outs1 outs2 : StopOutcomes) (pc : StopPc)
      (next : StopNext) (dev₁ : Device Callback Ctx)
      (hcall : dev.call = .close wasStarted outs1 outs2 (.stopRx pc))
      (hstep : dev.stopStep outs1 pc = some (next, dev₁)) :
      Move dev .api
        (dev₁.goto (.close wasStarted outs1 outs2
          (match next with
            | .at pc => .stopRx pc
            | .done result1 => .stopTx result1 .modeRequest)))
  | closeStopTx (wasStarted : Bool) (outs1 outs2 : StopOutcomes)
      (result1 : HackrfError) (pc : StopPc)
      (next : StopNext) (dev₁ : Device Callback Ctx)
      (hcall : dev.call = .close wasStarted outs1 outs2 (.stopTx result1 pc))
      (hstep : dev.stopStep outs2 pc = some (next, dev₁)) :
      Move dev .api
        (dev₁.goto (.close wasStarted outs1 outs2
          (match next with
            | .at pc => .stopTx result1 pc
            | .done result2 => .usbClose result1 result2)))
  | usbClosed (wasStarted : Bool) (outs1 outs2 : StopOutcomes)
      (result1 result2 : HackrfError)
      (hcall : dev.call =
        .close wasStarted outs1 outs2 (.usbClose result1 result2)) :
      Move dev .api
        ({ dev with usbOpen := false }.goto
          (.close wasStarted outs1 outs2 (.freeTransfer result1 result2 0)))
  | transferFreed (wasStarted : Bool) (outs1 outs2 : StopOutcomes)
      (result1 result2 : HackrfError) (index : TransferIndex) (pc : ClosePc)
      (hcall : dev.call =
        .close wasStarted outs1 outs2 (.freeTransfer result1 result2 index))
      (hpc : (∃ next, pc = .freeTransfer result1 result2 next) ∨
        pc = .freeDevice result1 result2) :
      Move dev .api
        ((dev.freeTransfer index).goto (.close wasStarted outs1 outs2 pc))
  | threadWaits (failed : Bool) (hthread : dev.transferThread = .atTest)
      (hon : dev.streaming = true ∧ dev.doExit = false) :
      Move dev (.thread failed) { dev with transferThread := .handlingEvents }
  | threadExits (failed : Bool) (hthread : dev.transferThread = .atTest)
      (hoff : ¬(dev.streaming = true ∧ dev.doExit = false)) :
      Move dev (.thread failed) { dev with transferThread := .exited }
  | eventsHandled (hthread : dev.transferThread = .handlingEvents) :
      Move dev (.thread false) { dev with transferThread := .atTest }
  | eventsFailed (hthread : dev.transferThread = .handlingEvents) :
      Move dev (.thread true)
        { dev with transferThread := .atTest, streaming := false }
  | delivered (index : TransferIndex) (status : TransferStatus)
      (hinFlight : (dev.transfers index).inFlight = true)
      (hfree : dev.handler = none) :
      Move dev (.deliver index status)
        { dev.takeOut index with
          handler := some {
            index := index
            session := (dev.transfers index).session
            phase := if status = .completed then .callback else .requestExit } }
  | callbackCalled (ok : Bool) (handler : Handler Callback)
      (callback : Callback)
      (hhandler : dev.handler = some handler)
      (hphase : handler.phase = .callback)
      (hcallback : dev.callback = some callback) :
      Move dev (.handler ok)
        { dev with
          handler := some { handler with
            phase := if ok then .resubmit else .requestExit }
          served :=
            if dev.installed = dev.sessions then
              Function.update dev.served handler.index true
            else dev.served }
  | resubmitted (handler : Handler Callback)
      (hhandler : dev.handler = some handler)
      (hphase : handler.phase = .resubmit)
      (hfree : (dev.transfers handler.index).inFlight = false) :
      Move dev (.handler true)
        { dev.putInFlight handler.index handler.session with handler := none }
  | resubmitRefused (ok : Bool) (handler : Handler Callback)
      (hhandler : dev.handler = some handler)
      (hphase : handler.phase = .resubmit)
      (hrefused : (dev.transfers handler.index).inFlight = true ∨ ok = false) :
      Move dev (.handler ok)
        { dev with handler := some { handler with phase := .requestExit } }
  | exitRequested (ok : Bool) (handler : Handler Callback)
      (hhandler : dev.handler = some handler)
      (hphase : handler.phase = .requestExit) :
      Move dev (.handler ok) { dev.requestExit with handler := none }

variable {dev dev' : Device Callback Ctx}

theorem submitTransfer_cases (ok : Bool) (index : TransferIndex)
    (session : Option (Session Callback)) (dev : Device Callback Ctx) :
    ((dev.transfers index).inFlight = false ∧ ok = true ∧
        dev.submitTransfer ok index session =
          (true, dev.putInFlight index session)) ∨
      (((dev.transfers index).inFlight = true ∨ ok = false) ∧
        dev.submitTransfer ok index session = (false, dev)) := by
  unfold submitTransfer
  cases hflight : (dev.transfers index).inFlight <;> cases ok <;> simp

theorem startStep_move {args : StartCall Callback Ctx} {outs : StartOutcomes}
    {pc : StartPc} (hcall : dev.call = .start args outs pc) :
    Move dev .api (dev.startStep args outs pc) := by
  cases pc with
  | modeRequest =>
      cases hmode : outs.mode with
      | false =>
          simpa [startStep, setTransceiverMode, hmode] using
            Move.modeRefused args outs hcall hmode
      | true =>
          simpa [startStep, setTransceiverMode, hmode] using
            Move.modeSet args outs hcall hmode
  | storeCtx => exact .ctxStored args outs hcall
  | testStarted =>
      cases hstarted : dev.transferThreadStarted with
      | false =>
          simpa [startStep, hstarted] using Move.begun args outs hcall hstarted
      | true =>
          simpa [startStep, hstarted] using Move.busy args outs hcall hstarted
  | clearStreaming => exact .streamingCleared args outs hcall
  | clearDoExit => exact .doExitCleared args outs hcall
  | submit index =>
      rcases submitTransfer_cases (outs.submit index) index
          (some (dev.currentSession args))
          (dev.setEndpoint index args.direction.endpoint) with
        ⟨hfree, haccepted, heq⟩ | ⟨hrefused, heq⟩
      · rw [setEndpoint_inFlight] at hfree
        simp only [startStep, heq]
        cases hnext : index.next with
        | some next =>
            exact .submitted args outs index (.submit next) hcall hfree
              haccepted (.inl ⟨next, hnext, rfl⟩)
        | none =>
            exact .submitted args outs index .setStreaming hcall hfree
              haccepted (.inr ⟨hnext, rfl⟩)
      · rw [setEndpoint_inFlight] at hrefused
        simp only [startStep, heq]
        exact .submitRefused args outs index hcall hrefused
  | setStreaming => exact .streamingSet args outs hcall
  | setCallback => exact .callbackInstalled args outs hcall
  | createThread =>
      cases hcreate : outs.create with
      | false =>
          simpa [startStep, hcreate] using
            Move.createRefused args outs hcall hcreate
      | true =>
          simpa [startStep, hcreate] using Move.created args outs hcall hcreate
  | setStarted => exact .startedSet args outs hcall

theorem closeStep_move {wasStarted : Bool} {outs1 outs2 : StopOutcomes}
    {pc : ClosePc} (hcall : dev.call = .close wasStarted outs1 outs2 pc)
    (hstep : dev.closeStep wasStarted outs1 outs2 pc = some dev') :
    Move dev .api dev' := by
  cases pc with
  | stopRx pc =>
      obtain ⟨⟨next, dev₁⟩, hstop, heq⟩ := Option.map_eq_some_iff.mp hstep
      have hmove := Move.closeStopRx wasStarted outs1 outs2 pc next dev₁
        hcall hstop
      cases next <;> exact heq ▸ hmove
  | stopTx result1 pc =>
      obtain ⟨⟨next, dev₁⟩, hstop, heq⟩ := Option.map_eq_some_iff.mp hstep
      have hmove := Move.closeStopTx wasStarted outs1 outs2 result1 pc next dev₁
        hcall hstop
      cases next <;> exact heq ▸ hmove
  | usbClose result1 result2 =>
      simp only [closeStep, Option.some.injEq] at hstep
      exact hstep ▸ .usbClosed wasStarted outs1 outs2 result1 result2 hcall
  | freeTransfer result1 result2 index =>
      cases hnext : index.next with
      | some next =>
          simp only [closeStep, hnext, Option.some.injEq] at hstep
          exact hstep ▸ .transferFreed wasStarted outs1 outs2 result1 result2
            index _ hcall (.inl ⟨next, rfl⟩)
      | none =>
          simp only [closeStep, hnext, Option.some.injEq] at hstep
          exact hstep ▸ .transferFreed wasStarted outs1 outs2 result1 result2
            index _ hcall (.inr rfl)
  | freeDevice result1 result2 => simp [closeStep] at hstep

theorem apiStep_move (hstep : dev.apiStep = some (.opened dev')) :
    Move dev .api dev' := by
  unfold apiStep at hstep
  cases hcall : dev.call with
  | idle => simp [hcall] at hstep
  | control result =>
      simp only [hcall, Option.some.injEq, Slot.opened.injEq] at hstep
      exact hstep ▸ .controlDone result hcall
  | start args outs pc =>
      simp only [hcall, Option.some.injEq, Slot.opened.injEq] at hstep
      exact hstep ▸ startStep_move hcall
  | stop outs pc =>
      simp only [hcall] at hstep
      obtain ⟨⟨next, dev₁⟩, hstop, heq⟩ := Option.map_eq_some_iff.mp hstep
      cases next with
      | «at» next =>
          simp only [Slot.opened.injEq] at heq
          exact heq ▸ .stopAt outs pc next dev₁ hcall hstop
      | done code =>
          simp only [Slot.opened.injEq] at heq
          exact heq ▸ .stopDone outs pc code dev₁ hcall hstop
  | close wasStarted outs1 outs2 pc =>
      rw [hcall] at hstep
      cases pc with
      | freeDevice result1 result2 => simp at hstep
      | _ =>
          obtain ⟨dev₁, hclose, heq⟩ := Option.map_eq_some_iff.mp hstep
          simp only [Slot.opened.injEq] at heq
          exact closeStep_move hcall (heq ▸ hclose)

theorem threadStep_move {failed : Bool}
    (hstep : dev.threadStep failed = some dev') :
    Move dev (.thread failed) dev' := by
  unfold threadStep at hstep
  cases hthread : dev.transferThread with
  | absent => simp [hthread] at hstep
  | atTest =>
      simp only [hthread] at hstep
      split at hstep
      next hon => exact Option.some.inj hstep ▸ .threadWaits failed hthread hon
      next hoff => exact Option.some.inj hstep ▸ .threadExits failed hthread hoff
  | handlingEvents =>
      cases failed with
      | false =>
          simp only [hthread] at hstep
          exact Option.some.inj hstep ▸ .eventsHandled hthread
      | true =>
          simp only [hthread, if_true] at hstep
          exact Option.some.inj hstep ▸ .eventsFailed hthread
  | exited => simp [hthread] at hstep

theorem deliver_move {index : TransferIndex} {status : TransferStatus}
    (hstep : dev.deliver index status = some dev') :
    Move dev (.deliver index status) dev' := by
  unfold deliver at hstep
  split at hstep
  next hguard =>
    obtain ⟨_, hinFlight, _, hnone⟩ := hguard
    exact Option.some.inj hstep ▸
      .delivered index status hinFlight (Option.isNone_iff_eq_none.mp hnone)
  next => simp at hstep

theorem handlerStep_move {ok : Bool}
    (hstep : dev.handlerStep ok = some dev') :
    Move dev (.handler ok) dev' := by
  obtain ⟨handler, hhandler, hphases⟩ := Option.bind_eq_some_iff.mp hstep
  cases hphase : handler.phase with
  | callback =>
      simp only [hphase] at hphases
      obtain ⟨callback, hcallback, heq⟩ := Option.map_eq_some_iff.mp hphases
      exact heq ▸ .callbackCalled ok handler callback hhandler hphase hcallback
  | resubmit =>
      simp only [hphase] at hphases
      rcases submitTransfer_cases ok handler.index handler.session dev with
        ⟨hfree, hok, heq⟩ | ⟨hrefused, heq⟩
      · simp only [heq, Option.some.injEq] at hphases
        subst hok
        exact hphases ▸ .resubmitted handler hhandler hphase hfree
      · simp only [heq, Option.some.injEq] at hphases
        exact hphases ▸ .resubmitRefused ok handler hhandler hphase hrefused
  | requestExit =>
      simp only [hphase, Option.some.injEq] at hphases
      exact hphases ▸ .exitRequested ok handler hhandler hphase

/-- Every local step between open devices is one of the moves. -/
theorem move_of_localStep {action : Action Callback Ctx}
    (hstep : localStep (.opened dev) action = some (.opened dev')) :
    Move dev action dev' := by
  cases action with
  | «open» => simp [localStep] at hstep
  | enter call =>
      cases hcall : dev.call with
      | idle =>
          simp only [localStep, hcall, Option.some.injEq,
            Slot.opened.injEq] at hstep
          exact hstep ▸ .entered call hcall
      | _ => simp [localStep, hcall] at hstep
  | api => exact apiStep_move hstep
  | thread failed =>
      obtain ⟨dev₁, hthread, heq⟩ := Option.map_eq_some_iff.mp hstep
      simp only [Slot.opened.injEq] at heq
      exact threadStep_move (heq ▸ hthread)
  | deliver index status =>
      obtain ⟨dev₁, hdeliver, heq⟩ := Option.map_eq_some_iff.mp hstep
      simp only [Slot.opened.injEq] at heq
      exact deliver_move (heq ▸ hdeliver)
  | handler ok =>
      obtain ⟨dev₁, hhandler, heq⟩ := Option.map_eq_some_iff.mp hstep
      simp only [Slot.opened.injEq] at heq
      exact handlerStep_move (heq ▸ hhandler)

/-! ## The statements of a stop call -/

inductive StopMove (outs : StopOutcomes) (dev : Device Callback Ctx) :
    StopPc → StopNext → Device Callback Ctx → Prop where
  | modeRefused (hmode : outs.mode = false) :
      StopMove outs dev .modeRequest (.done .libusb) dev
  | modeSet (hmode : outs.mode = true) :
      StopMove outs dev .modeRequest (.at .requestExit)
        { dev with mode := some .off }
  | exitRequested : StopMove outs dev .requestExit (.at .join) dev.requestExit
  | notStarted (hstarted : dev.transferThreadStarted = false) :
      StopMove outs dev .join (.done .success) dev
  | joinFailed (hstarted : dev.transferThreadStarted = true)
      (hjoin : outs.join = false) :
      StopMove outs dev .join (.done .thread) dev
  | joined (hstarted : dev.transferThreadStarted = true)
      (hjoin : outs.join = true) (hthread : dev.transferThread = .exited) :
      StopMove outs dev .join (.at .clearStarted)
        { dev with transferThread := .absent }
  | startedCleared :
      StopMove outs dev .clearStarted (.at (.cancel 0))
        { dev with transferThreadStarted := false }
  | cancelled (index next : TransferIndex) (hnext : index.next = some next) :
      StopMove outs dev (.cancel index) (.at (.cancel next))
        (dev.cancelTransfer index)
  | lastCancelled (index : TransferIndex) (hnext : index.next = none) :
      StopMove outs dev (.cancel index) (.done .success)
        (dev.cancelTransfer index)

theorem stopMove_of_stopStep {outs : StopOutcomes} {pc : StopPc}
    {next : StopNext} {dev₁ : Device Callback Ctx}
    (hstep : dev.stopStep outs pc = some (next, dev₁)) :
    StopMove outs dev pc next dev₁ := by
  cases pc with
  | modeRequest =>
      cases hmode : outs.mode with
      | false =>
          simp [stopStep, setTransceiverMode, hmode] at hstep
          exact hstep.1 ▸ hstep.2 ▸ .modeRefused hmode
      | true =>
          simp [stopStep, setTransceiverMode, hmode] at hstep
          exact hstep.1 ▸ hstep.2 ▸ .modeSet hmode
  | requestExit =>
      simp only [stopStep, Option.some.injEq, Prod.mk.injEq] at hstep
      exact hstep.1 ▸ hstep.2 ▸ .exitRequested
  | join =>
      simp only [stopStep] at hstep
      split_ifs at hstep with hstarted hjoin hthread <;>
        simp only [Option.some.injEq, Prod.mk.injEq] at hstep
      · exact hstep.1 ▸ hstep.2 ▸ .notStarted hstarted
      · exact hstep.1 ▸ hstep.2 ▸ .joinFailed (by simpa using hstarted) hjoin
      · exact hstep.1 ▸ hstep.2 ▸
          .joined (by simpa using hstarted) (by simpa using hjoin) hthread
  | clearStarted =>
      simp only [stopStep, Option.some.injEq, Prod.mk.injEq] at hstep
      exact hstep.1 ▸ hstep.2 ▸ .startedCleared
  | cancel index =>
      cases hnext : index.next with
      | some next =>
          simp only [stopStep, hnext, Option.some.injEq, Prod.mk.injEq] at hstep
          exact hstep.1 ▸ hstep.2 ▸ .cancelled index next hnext
      | none =>
          simp only [stopStep, hnext, Option.some.injEq, Prod.mk.injEq] at hstep
          exact hstep.1 ▸ hstep.2 ▸ .lastCancelled index hnext

/-- What no statement of a stop call touches; `do_exit` it only sets, and
`transfer_thread_started` it only clears. -/
structure StopFrame (dev dev₁ : Device Callback Ctx) : Prop where
  callback : dev₁.callback = dev.callback
  handler : dev₁.handler = dev.handler
  sessions : dev₁.sessions = dev.sessions
  installed : dev₁.installed = dev.installed
  served : dev₁.served = dev.served
  inFlight : ∀ k, (dev₁.transfers k).inFlight = (dev.transfers k).inFlight
  session : ∀ k, (dev₁.transfers k).session = (dev.transfers k).session
  endpoint : ∀ k, (dev₁.transfers k).endpoint = (dev.transfers k).endpoint
  started : dev₁.transferThreadStarted = true →
    dev.transferThreadStarted = true
  doExit : dev₁.doExit = false → dev.doExit = false

theorem StopMove.frame {outs : StopOutcomes} {pc : StopPc} {next : StopNext}
    {dev₁ : Device Callback Ctx} (hmove : StopMove outs dev pc next dev₁) :
    StopFrame dev dev₁ := by
  cases hmove with
  | cancelled index _ _ | lastCancelled index _ =>
      constructor <;>
        first
        | exact fun k => by simp
        | simp [cancelTransfer, setTransfer]
  | _ => constructor <;> simp [requestExit]

theorem stopFrame_of_stopStep {outs : StopOutcomes} {pc : StopPc}
    {next : StopNext} {dev₁ : Device Callback Ctx}
    (hstep : dev.stopStep outs pc = some (next, dev₁)) :
    StopFrame dev dev₁ :=
  (stopMove_of_stopStep hstep).frame

end Device

end HackRF.Streaming
