import HackRF.StreamingMoves

/-!
# Failing start calls

`hackrf_start_rx` and `hackrf_start_tx` command the mode and store the context
before they look whether a transfer thread is running, and they submit the
transfers before they create the thread.  The first section shows that the
functions run in one go are what the machine does when nothing interferes.
The second one finds out which failures leave no trace.
-/

namespace HackRF.Streaming

variable {Callback Ctx : Type*}

/-- The API function which makes a start call. -/
def StartCall.apiCall (args : StartCall Callback Ctx) (outs : StartOutcomes) :
    ApiCall Callback Ctx :=
  match args.direction with
  | .rx => .startRx args.callback args.ctx outs
  | .tx => .startTx args.callback args.ctx outs

theorem StartCall.apiCall_entry (args : StartCall Callback Ctx)
    (outs : StartOutcomes) (dev : Device Callback Ctx) :
    (args.apiCall outs).entry dev = .start args outs .modeRequest := by
  cases args with
  | mk direction callback ctx => cases direction <;> rfl

namespace Device

variable {dev dev' dev'' : Device Callback Ctx}
  {args : StartCall Callback Ctx} {outs : StartOutcomes}

/-! ## Start calls without interference -/

def ApiReaches (dev dev' : Device Callback Ctx) : Prop :=
  ∃ n, EventRun.run localStep (.opened dev)
    (List.replicate n Action.api) = some (.opened dev')

theorem ApiReaches.refl (dev : Device Callback Ctx) : ApiReaches dev dev :=
  ⟨0, rfl⟩

theorem ApiReaches.trans (hfirst : ApiReaches dev dev')
    (hsecond : ApiReaches dev' dev'') : ApiReaches dev dev'' := by
  obtain ⟨n, hn⟩ := hfirst
  obtain ⟨m, hm⟩ := hsecond
  exact ⟨n + m, by
    rw [List.replicate_add, EventRun.run_append, hn]
    exact hm⟩

theorem ApiReaches.startStep {pc : StartPc}
    (hcall : dev.call = .start args outs pc)
    (hrest : ApiReaches (dev.startStep args outs pc) dev') :
    ApiReaches dev dev' := by
  obtain ⟨n, hn⟩ := hrest
  have hstep : localStep (.opened dev) Action.api =
      some (.opened (dev.startStep args outs pc)) := by
    simp [localStep, apiStep, hcall]
  exact ⟨n + 1, by simpa [List.replicate_succ, hstep] using hn⟩

/-- The indices that a loop over the transfers has left after `index`. -/
def LoopRest : TransferIndex → List TransferIndex → Prop
  | index, [] => index.next = none
  | index, next :: rest => index.next = some next ∧ LoopRest next rest

/-- Where a start call goes from `prepare_transfers`. -/
def afterPrepare (args : StartCall Callback Ctx) (outs : StartOutcomes) :
    HackrfError × Device Callback Ctx → Device Callback Ctx
  | (.success, dev) => dev.goto (.start args outs .setStreaming)
  | (code, dev) => dev.finish code

theorem submitTransfer_goto (ok : Bool) (index : TransferIndex)
    (session : Option (Session Callback)) (call : Call Callback Ctx)
    (dev : Device Callback Ctx) :
    (dev.goto call).submitTransfer ok index session =
      ((dev.submitTransfer ok index session).1,
        (dev.submitTransfer ok index session).2.goto call) := by
  rcases submitTransfer_cases ok index session dev with
    ⟨hfree, hok, heq⟩ | ⟨hrefused, heq⟩
  · rw [heq]
    simp [submitTransfer, goto, hfree, hok, putInFlight, setTransfer]
  · rw [heq]
    rcases hrefused with hfly | hok
    · simp [submitTransfer, goto, hfly]
    · simp [submitTransfer, hok]

theorem startStep_submit (index : TransferIndex) (call : Call Callback Ctx)
    (dev : Device Callback Ctx) :
    (dev.goto call).startStep args outs (.submit index) =
      match (dev.setEndpoint index args.direction.endpoint).submitTransfer
          (outs.submit index) index (some (dev.currentSession args)) with
      | (true, dev) =>
          match index.next with
          | some next => dev.goto (.start args outs (.submit next))
          | none => dev.goto (.start args outs .setStreaming)
      | (false, dev) => dev.finish .libusb := by
  have hsubmit := submitTransfer_goto (outs.submit index) index
    (some (dev.currentSession args)) call
    (dev.setEndpoint index args.direction.endpoint)
  have hgoto : (dev.goto call).setEndpoint index args.direction.endpoint =
      (dev.setEndpoint index args.direction.endpoint).goto call := rfl
  have hsession : (dev.goto call).currentSession args =
      dev.currentSession args := rfl
  rw [Device.startStep, hgoto, hsession, hsubmit]
  rcases (dev.setEndpoint index args.direction.endpoint).submitTransfer
      (outs.submit index) index (some (dev.currentSession args)) with
    ⟨accepted, dev₁⟩
  cases accepted with
  | false => rfl
  | true => cases index.next <;> rfl

theorem apiReaches_prepareLoop (args : StartCall Callback Ctx)
    (outs : StartOutcomes) {index : TransferIndex}
    {rest : List TransferIndex} (hrest : LoopRest index rest)
    (dev : Device Callback Ctx) :
    ApiReaches (dev.goto (.start args outs (.submit index)))
      (afterPrepare args outs
        (dev.prepareLoop args outs.submit (index :: rest))) := by
  induction rest generalizing index dev with
  | nil =>
      refine .startStep rfl ?_
      have hnext : index.next = none := hrest
      rw [startStep_submit, prepareLoop, hnext]
      rcases (dev.setEndpoint index args.direction.endpoint).submitTransfer
          (outs.submit index) index (some (dev.currentSession args)) with
        ⟨accepted, dev₁⟩
      cases accepted <;> exact ApiReaches.refl _
  | cons next rest ih =>
      obtain ⟨hnext, htail⟩ := hrest
      refine .startStep rfl ?_
      rw [startStep_submit, prepareLoop, hnext]
      rcases (dev.setEndpoint index args.direction.endpoint).submitTransfer
          (outs.submit index) index (some (dev.currentSession args)) with
        ⟨accepted, dev₁⟩
      cases accepted with
      | false => exact ApiReaches.refl _
      | true => exact ih htail dev₁

theorem apiReaches_setStreaming (dev : Device Callback Ctx) :
    ApiReaches (dev.goto (.start args outs .setStreaming))
      (let dev := { dev with streaming := true }.installCallback args.callback
       if outs.create then
         { dev with
           transferThread := .atTest, transferThreadStarted := true }.finish
             .success
       else dev.finish .thread) := by
  refine .startStep rfl (.startStep rfl (.startStep rfl ?_))
  cases hcreate : outs.create with
  | false =>
      simpa [Device.startStep, goto, finish, installCallback, hcreate]
        using ApiReaches.refl _
  | true =>
      simp only [Device.startStep, hcreate, ↓reduceIte]
      exact .startStep rfl (ApiReaches.refl _)

theorem apiReaches_createTransferThread (args : StartCall Callback Ctx)
    (outs : StartOutcomes) (dev : Device Callback Ctx) :
    ApiReaches (dev.goto (.start args outs .testStarted))
      ((dev.createTransferThread args outs).2.finish
        (dev.createTransferThread args outs).1) := by
  refine .startStep rfl ?_
  cases hstarted : dev.transferThreadStarted with
  | true =>
      simpa [Device.startStep, createTransferThread, goto, finish, hstarted]
        using ApiReaches.refl _
  | false =>
      have hbegin : (dev.goto (.start args outs .testStarted)).startStep
          args outs .testStarted =
            dev.beginSession.goto (.start args outs .clearStreaming) := by
        simp [Device.startStep, goto, beginSession, hstarted]
      rw [hbegin]
      refine .startStep rfl (.startStep rfl ?_)
      have hindices : LoopRest 0 [1, 2, 3] := ⟨rfl, rfl, rfl, rfl⟩
      have hloop := apiReaches_prepareLoop args outs hindices
        { dev.beginSession with streaming := false, doExit := false }
      apply ApiReaches.trans hloop
      have hprepare : prepareLoop args outs.submit [0, 1, 2, 3]
            { dev.beginSession with streaming := false, doExit := false } =
          prepareTransfers args outs.submit
            { dev.beginSession with streaming := false, doExit := false } :=
        rfl
      rw [hprepare]
      simp only [createTransferThread, hstarted, ↓reduceIte]
      rcases prepareTransfers args outs.submit
          { dev.beginSession with streaming := false, doExit := false } with
        ⟨code, prepared⟩
      cases code with
      | success =>
          apply ApiReaches.trans (apiReaches_setStreaming prepared)
          cases outs.create <;> exact ApiReaches.refl _
      | _ => exact ApiReaches.refl _

/-- A start call which nothing interferes with does what `hackrfStart`
computes, and returns its code. -/
theorem apiReaches_hackrfStart (args : StartCall Callback Ctx)
    (outs : StartOutcomes) (dev : Device Callback Ctx) :
    ApiReaches (dev.goto (.start args outs .modeRequest))
      ((dev.hackrfStart args outs).2.finish (dev.hackrfStart args outs).1) := by
  refine .startStep rfl ?_
  cases hmode : outs.mode with
  | false =>
      simpa [Device.startStep, hackrfStart, setTransceiverMode, goto, finish,
        hmode] using ApiReaches.refl _
  | true =>
      simp only [Device.startStep, hackrfStart, setTransceiverMode, hmode,
        ↓reduceIte]
      refine .startStep rfl ?_
      have hcreate := apiReaches_createTransferThread args outs
        ({ dev with mode := some args.direction.mode }.storeCtx
          args.direction args.ctx)
      cases hdir : args.direction <;>
        simpa [Device.startStep, storeCtx, goto, hdir] using hcreate

theorem run_start_eq_hackrfStart (hidle : dev.call = .idle) :
    ∃ n, EventRun.run localStep (.opened dev)
        (.enter (args.apiCall outs) :: List.replicate n Action.api) =
      some (.opened ((dev.hackrfStart args outs).2.finish
        (dev.hackrfStart args outs).1)) := by
  obtain ⟨n, hn⟩ := apiReaches_hackrfStart args outs dev
  exact ⟨n, by simpa [localStep, hidle, StartCall.apiCall_entry] using hn⟩

/-! ## What a failing start call leaves behind -/

structure SameStreaming (dev dev' : Device Callback Ctx) : Prop where
  mode : dev'.mode = dev.mode
  rxCtx : dev'.rxCtx = dev.rxCtx
  txCtx : dev'.txCtx = dev.txCtx
  callback : dev'.callback = dev.callback
  streaming : dev'.streaming = dev.streaming
  inFlight : ∀ index,
    (dev'.transfers index).inFlight = (dev.transfers index).inFlight

def ctx (direction : Direction) (dev : Device Callback Ctx) : Option Ctx :=
  match direction with
  | .rx => dev.rxCtx
  | .tx => dev.txCtx

def FirstSubmitFails (outs : StartOutcomes) (dev : Device Callback Ctx) : Prop :=
  (dev.transfers 0).inFlight = true ∨ outs.submit 0 = false

theorem prepareLoop_inFlight {submit : TransferIndex → Bool}
    {index : TransferIndex} (indices : List TransferIndex)
    (hfly : (dev.transfers index).inFlight = true) :
    ((dev.prepareLoop args submit indices).2.transfers index).inFlight =
      true := by
  induction indices generalizing dev with
  | nil => exact hfly
  | cons next rest ih =>
      rw [prepareLoop]
      rcases submitTransfer_cases (submit next) next
          (some (dev.currentSession args))
          (dev.setEndpoint next args.direction.endpoint) with
        ⟨hfree, hok, heq⟩ | ⟨hrefused, heq⟩
      · rw [heq]
        apply ih
        rw [putInFlight_inFlight, setEndpoint_inFlight, hfly, ite_self]
      · rw [heq]
        simpa using hfly

/-- If the first submission does not go through, nothing has been put in
flight; otherwise the first transfer is, and it stays in flight. -/
theorem prepareTransfers_cases (args : StartCall Callback Ctx)
    (outs : StartOutcomes) (dev : Device Callback Ctx) :
    (dev.FirstSubmitFails outs ∧
        dev.prepareTransfers args outs.submit =
          (.libusb, dev.setEndpoint 0 args.direction.endpoint)) ∨
      (¬ dev.FirstSubmitFails outs ∧ (dev.transfers 0).inFlight = false ∧
        ((dev.prepareTransfers args outs.submit).2.transfers 0).inFlight =
          true) := by
  have hindices : List.finRange transferCount = [0, 1, 2, 3] := rfl
  rw [prepareTransfers, hindices, prepareLoop]
  rcases submitTransfer_cases (outs.submit 0) 0
      (some (dev.currentSession args))
      (dev.setEndpoint 0 args.direction.endpoint) with
    ⟨hfree, hok, heq⟩ | ⟨hrefused, heq⟩
  · rw [setEndpoint_inFlight] at hfree
    rw [heq]
    refine .inr ⟨by simp [FirstSubmitFails, hfree, hok], hfree, ?_⟩
    exact prepareLoop_inFlight _ (by simp)
  · rw [setEndpoint_inFlight] at hrefused
    rw [heq]
    exact .inl ⟨hrefused, rfl⟩

theorem createTransferThread_cases (args : StartCall Callback Ctx)
    (outs : StartOutcomes) (dev : Device Callback Ctx)
    (hstarted : dev.transferThreadStarted = false) :
    (dev.FirstSubmitFails outs ∧
        dev.createTransferThread args outs =
          (.libusb, { dev.beginSession with
            streaming := false, doExit := false }.setEndpoint 0
              args.direction.endpoint)) ∨
      (¬ dev.FirstSubmitFails outs ∧ (dev.transfers 0).inFlight = false ∧
        ((dev.createTransferThread args outs).2.transfers 0).inFlight =
          true) := by
  rcases prepareTransfers_cases args outs
      { dev.beginSession with streaming := false, doExit := false } with
    ⟨hfails, hprepare⟩ | ⟨hgoes, hfree, hfly⟩
  · refine .inl ⟨hfails, ?_⟩
    simp only [createTransferThread, hstarted, ↓reduceIte, hprepare]
  · refine .inr ⟨hgoes, hfree, ?_⟩
    simp only [createTransferThread, hstarted, ↓reduceIte]
    rcases hprepare : prepareTransfers args outs.submit
        { dev.beginSession with streaming := false, doExit := false } with
      ⟨code, prepared⟩
    rw [hprepare] at hfly
    cases code with
    | success => cases outs.create <;> exact hfly
    | _ => exact hfly

/-- The device when a start call makes its busy check. -/
def commanded (direction : Direction) (ctx : Ctx) (dev : Device Callback Ctx) :
    Device Callback Ctx :=
  { dev with mode := some direction.mode }.storeCtx direction ctx

section Commanded

variable (direction : Direction) (ctx : Ctx)

@[simp] theorem commanded_transferThreadStarted :
    (dev.commanded direction ctx).transferThreadStarted =
      dev.transferThreadStarted := by
  cases direction <;> rfl

@[simp] theorem commanded_transfers :
    (dev.commanded direction ctx).transfers = dev.transfers := by
  cases direction <;> rfl

@[simp] theorem commanded_streaming :
    (dev.commanded direction ctx).streaming = dev.streaming := by
  cases direction <;> rfl

@[simp] theorem commanded_firstSubmitFails :
    (dev.commanded direction ctx).FirstSubmitFails outs ↔
      dev.FirstSubmitFails outs := by
  simp [FirstSubmitFails]

/-- The mode request and the context assignment change nothing exactly if
they repeat what is there. -/
theorem sameStreaming_commanded :
    dev.SameStreaming (dev.commanded direction ctx) ↔
      dev.mode = some direction.mode ∧ dev.ctx direction = some ctx := by
  constructor
  · intro hsame
    refine ⟨?_, ?_⟩
    · have hmode := hsame.mode
      cases direction <;> exact hmode.symm
    · cases direction with
      | rx => exact hsame.rxCtx.symm
      | tx => exact hsame.txCtx.symm
  · rintro ⟨hmode, hctx⟩
    cases direction with
    | rx => exact ⟨hmode.symm, hctx.symm, rfl, rfl, rfl, fun _ => rfl⟩
    | tx => exact ⟨hmode.symm, rfl, hctx.symm, rfl, rfl, fun _ => rfl⟩

theorem sameStreaming_clearStreaming (index : TransferIndex)
    (endpoint : Endpoint) :
    dev.SameStreaming ({ (dev.commanded direction ctx).beginSession with
        streaming := false, doExit := false }.setEndpoint index endpoint) ↔
      dev.SameStreaming (dev.commanded direction ctx) ∧
        dev.streaming = false := by
  constructor
  · intro hsame
    refine ⟨⟨hsame.mode, hsame.rxCtx, hsame.txCtx, hsame.callback,
      commanded_streaming direction ctx, fun k => ?_⟩, hsame.streaming.symm⟩
    rw [commanded_transfers]
  · rintro ⟨hsame, hclear⟩
    exact ⟨hsame.mode, hsame.rxCtx, hsame.txCtx, hsame.callback,
      hclear.symm, fun k => by simp [beginSession]⟩

end Commanded

theorem hackrfStart_of_mode (hmode : outs.mode = true) :
    dev.hackrfStart args outs =
      (dev.commanded args.direction args.ctx).createTransferThread args outs := by
  simp [hackrfStart, setTransceiverMode, hmode, commanded]

/-! ## When a start call succeeds -/

theorem prepareLoop_success_iff (args : StartCall Callback Ctx)
    (submit : TransferIndex → Bool) {indices : List TransferIndex}
    (hnodup : indices.Nodup)
    (dev : Device Callback Ctx) :
    (dev.prepareLoop args submit indices).1 = .success ↔
      ∀ index ∈ indices,
        (dev.transfers index).inFlight = false ∧ submit index = true := by
  induction indices generalizing dev with
  | nil => simp [prepareLoop]
  | cons index rest ih =>
      obtain ⟨hindex, hrest⟩ := List.nodup_cons.mp hnodup
      rw [prepareLoop, List.forall_mem_cons]
      rcases submitTransfer_cases (submit index) index
          (some (dev.currentSession args))
          (dev.setEndpoint index args.direction.endpoint) with
        ⟨hfree, hok, heq⟩ | ⟨hrefused, heq⟩
      · rw [setEndpoint_inFlight] at hfree
        rw [heq]
        simp only [ih hrest, hfree, hok, true_and]
        apply forall₂_congr
        intro k hk
        have hne : k ≠ index := fun hkindex => hindex (hkindex ▸ hk)
        rw [putInFlight_inFlight, if_neg hne, setEndpoint_inFlight]
      · rw [setEndpoint_inFlight] at hrefused
        simp only [heq, reduceCtorEq, false_iff]
        rintro ⟨⟨hfree, hok⟩, -⟩
        simp_all

/-- Everything a start call needs: the mode request, no transfer thread, every
transfer out of flight and accepted, the thread created. -/
structure StartGoesThrough (outs : StartOutcomes)
    (dev : Device Callback Ctx) : Prop where
  mode : outs.mode = true
  notStarted : dev.transferThreadStarted = false
  submit : ∀ index, (dev.transfers index).inFlight = false ∧
    outs.submit index = true
  create : outs.create = true

theorem createTransferThread_success_iff (dev : Device Callback Ctx) :
    (dev.createTransferThread args outs).1 = .success ↔
      dev.transferThreadStarted = false ∧
        (∀ index, (dev.transfers index).inFlight = false ∧
          outs.submit index = true) ∧ outs.create = true := by
  cases hstarted : dev.transferThreadStarted with
  | true => simp [createTransferThread, hstarted]
  | false =>
      have hloop := prepareLoop_success_iff args outs.submit
        (List.nodup_finRange transferCount)
        { dev.beginSession with streaming := false, doExit := false }
      simp only [List.mem_finRange, true_imp_iff] at hloop
      change _ ↔ ∀ index, (dev.transfers index).inFlight = false ∧ _ at hloop
      rw [← hloop]
      simp only [createTransferThread, prepareTransfers, hstarted, ↓reduceIte,
        true_and]
      rcases prepareLoop args outs.submit (List.finRange transferCount)
          { dev.beginSession with streaming := false, doExit := false } with
        ⟨code, prepared⟩
      cases code with
      | success => cases outs.create <;> simp
      | _ => simp

theorem hackrfStart_success_iff (args : StartCall Callback Ctx)
    (outs : StartOutcomes) (dev : Device Callback Ctx) :
    (dev.hackrfStart args outs).1 = .success ↔ dev.StartGoesThrough outs := by
  cases hmode : outs.mode with
  | false =>
      simp only [hackrfStart, setTransceiverMode, hmode, Bool.false_eq_true,
        ↓reduceIte, reduceCtorEq, false_iff]
      intro hgoes
      simp [hgoes.mode] at hmode
  | true =>
      rw [hackrfStart_of_mode hmode, createTransferThread_success_iff,
        commanded_transferThreadStarted, commanded_transfers]
      constructor
      · rintro ⟨hstarted, hsubmit, hcreate⟩
        exact ⟨hmode, hstarted, hsubmit, hcreate⟩
      · intro hgoes
        exact ⟨hgoes.notStarted, hgoes.submit, hgoes.create⟩

/-- What a start call leaves unchanged, whether it fails or not. -/
theorem hackrfStart_sameStreaming_iff (dev : Device Callback Ctx) :
    dev.SameStreaming (dev.hackrfStart args outs).2 ↔
      outs.mode = false ∨
        (dev.mode = some args.direction.mode ∧
          dev.ctx args.direction = some args.ctx ∧
          (dev.transferThreadStarted = true ∨
            (dev.streaming = false ∧ dev.FirstSubmitFails outs))) := by
  cases hmode : outs.mode with
  | false =>
      have hstart : dev.hackrfStart args outs = (.libusb, dev) := by
        simp [hackrfStart, setTransceiverMode, hmode]
      rw [hstart]
      exact ⟨fun _ => .inl rfl,
        fun _ => ⟨rfl, rfl, rfl, rfl, rfl, fun _ => rfl⟩⟩
  | true =>
      rw [hackrfStart_of_mode hmode, ← and_assoc,
        ← sameStreaming_commanded args.direction args.ctx]
      cases hstarted : dev.transferThreadStarted with
      | true =>
          have hbusy : (dev.commanded args.direction args.ctx).createTransferThread
              args outs = (.busy, dev.commanded args.direction args.ctx) := by
            simp [createTransferThread, hstarted]
          simp [hbusy]
      | false =>
          rcases createTransferThread_cases args outs
              (dev.commanded args.direction args.ctx) (by simp [hstarted]) with
            ⟨hfails, hcreate⟩ | ⟨hgoes, hfree, hfly⟩
          · rw [commanded_firstSubmitFails] at hfails
            rw [hcreate, sameStreaming_clearStreaming]
            simp [hfails]
          · -- transfer 0 was out of flight and is in flight now
            rw [commanded_firstSubmitFails] at hgoes
            rw [commanded_transfers] at hfree
            have hchanged : ¬ dev.SameStreaming
                ((dev.commanded args.direction args.ctx).createTransferThread
                  args outs).2 := fun hsame => by
              simp [hsame.inFlight 0, hfree] at hfly
            simp [hchanged, hgoes]

end Device

/-- If a start call fails, it leaves the streaming state as it was: this is
true exactly when it does not fail, when its mode request fails, or when the
mode and the context it writes were there already and it then fails at the
busy check, or at the first submission on a device whose `streaming` was
clear. -/
theorem failedStart_sameStreaming_iff (args : StartCall Callback Ctx)
    (outs : StartOutcomes) (dev : Device Callback Ctx) :
    ((dev.hackrfStart args outs).1 ≠ .success →
        dev.SameStreaming (dev.hackrfStart args outs).2) ↔
      dev.StartGoesThrough outs ∨ outs.mode = false ∨
        (dev.mode = some args.direction.mode ∧
          dev.ctx args.direction = some args.ctx ∧
          (dev.transferThreadStarted = true ∨
            (dev.streaming = false ∧ dev.FirstSubmitFails outs))) := by
  rw [← Device.hackrfStart_sameStreaming_iff,
    ← Device.hackrfStart_success_iff args outs]
  exact or_iff_not_imp_left.symm

/-- A receiving device, on which the application calls `hackrf_start_tx`: the
call returns `HACKRF_ERROR_BUSY`, but the hardware has been told to transmit
and `tx_ctx` has been overwritten, while the receiving thread runs on. -/
theorem busy_start_tx_commands_transmit :
    let events : List (Event Unit ℕ ℕ) :=
      [.open (), .enter () (.startRx 0 0 ⟨true, fun _ => true, true⟩)] ++
        apiSteps () 13
    ∃ dev, deviceAfter events () = some dev ∧
      dev.mode = some .receive ∧ dev.txCtx = none ∧
      ∃ dev', dev.hackrfStartTx 1 1 ⟨true, fun _ => true, true⟩ = (.busy, dev') ∧
        dev'.mode = some .transmit ∧ dev'.txCtx = some 1 ∧
        ¬ dev.SameStreaming dev' := by
  intro events
  have hsome : (deviceAfter events ()).map (fun dev => (dev.mode, dev.txCtx,
        dev.transferThreadStarted)) = some (some .receive, none, true) := by rfl
  obtain ⟨dev, hdev, heq⟩ := Option.map_eq_some_iff.mp hsome
  simp only [Prod.mk.injEq] at heq
  obtain ⟨hmode, hctx, hstarted⟩ := heq
  refine ⟨dev, hdev, hmode, hctx, dev.commanded .tx 1, ?_, rfl, rfl, ?_⟩
  · simp [Device.hackrfStartTx, Device.hackrfStart_of_mode,
      Device.createTransferThread, hstarted]
  · rw [Device.sameStreaming_commanded, hmode]
    simp [Direction.mode]

end HackRF.Streaming
