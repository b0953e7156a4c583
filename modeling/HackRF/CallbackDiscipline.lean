import HackRF.StreamingMoves

/-!
# Which callback a completed transfer is handed to

`prepare_transfers` puts the transfers in flight before
`create_transfer_thread` assigns `device->callback`, and a start call which
fails in between never assigns it.  A transfer that completes in this window
is handed to the callback of an earlier session, or to a null pointer.
Outside the window the discipline holds: a start call gets to its assignment
only after all four of its submissions were accepted, so that no transfer of
an earlier session is left in flight when the callback changes.
-/

namespace HackRF.Streaming

variable {D Callback Ctx : Type*}

/-- The completion handler of a completed transfer is about to call
`device->callback`, and that is the callback given to the start call which
submitted the transfer. -/
def Device.CallsSubmitter (dev : Device Callback Ctx) : Prop :=
  ∀ handler, dev.handler = some handler → handler.phase = .callback →
    ∃ session, handler.session = some session ∧
      dev.callback = some session.callback

/-- The condition on a run: a transfer completes only after
`device->callback` has been assigned by the start call that submitted it or by
a later one, and the assignment does not come between the entry of a
completion handler of the device and its call of the callback. -/
def Device.publishedBefore (dev : Device Callback Ctx)
    (action : Action Callback Ctx) : Bool :=
  match action, dev.call with
  | .deliver index .completed, _ =>
      (dev.transfers index).session.all fun session =>
        session.number ≤ dev.installed
  | .api, .start _ _ .setCallback =>
      dev.handler.all fun handler => handler.phase ≠ .callback
  | _, _ => true

/-- A session has not assigned its callback yet, or `device->callback` is
still the one it assigned. -/
def Device.Serves (dev : Device Callback Ctx) (session : Session Callback) :
    Prop :=
  session.number ≤ dev.installed → dev.callback = some session.callback

def Call.beforeInstall : Call Callback Ctx → Bool
  | .start _ _ .clearStreaming => true
  | .start _ _ .clearDoExit => true
  | .start _ _ (.submit _) => true
  | .start _ _ .setStreaming => true
  | .start _ _ .setCallback => true
  | _ => false

def Call.submittedFor (index : TransferIndex) :
    Call Callback Ctx → Option (StartCall Callback Ctx)
  | .start args _ (.submit reached) =>
      if index < reached then some args else none
  | .start args _ .setStreaming => some args
  | .start args _ .setCallback => some args
  | _ => none

structure Device.CallbackInvariant (dev : Device Callback Ctx) : Prop where
  bound : dev.installed ≤ dev.sessions
  pending : dev.call.beforeInstall = true → dev.installed < dev.sessions
  labels : ∀ index, (dev.transfers index).inFlight = true →
    ∃ session, (dev.transfers index).session = some session ∧
      dev.Serves session
  calling : ∀ handler, dev.handler = some handler →
    handler.phase = .callback →
      ∃ session, handler.session = some session ∧
        session.number ≤ dev.installed ∧ dev.Serves session
  resubmitting : ∀ handler, dev.handler = some handler →
    handler.phase = .resubmit →
      (dev.transfers handler.index).inFlight = true ∨
        ∃ session, handler.session = some session ∧ dev.Serves session
  current : ∀ index args, dev.call.submittedFor index = some args →
    (dev.transfers index).inFlight = true →
      (dev.transfers index).session = some (dev.currentSession args)
  handledCurrent : ∀ index args, dev.call.submittedFor index = some args →
    ∀ handler, dev.handler = some handler → handler.index = index →
      (dev.transfers index).inFlight = true ∨
        handler.session = some (dev.currentSession args)

@[simp] theorem ApiCall.entry_beforeInstall
    (call : ApiCall Callback Ctx) (dev : Device Callback Ctx) :
    (call.entry dev).beforeInstall = false := by
  cases call <;> rfl

@[simp] theorem ApiCall.entry_submittedFor (index : TransferIndex)
    (call : ApiCall Callback Ctx) (dev : Device Callback Ctx) :
    (call.entry dev).submittedFor index = none := by
  cases call <;> rfl

namespace Device

variable {dev dev' dev₁ : Device Callback Ctx}

theorem CallbackInvariant.callsSubmitter (hinv : dev.CallbackInvariant) :
    dev.CallsSubmitter := by
  intro handler hhandler hphase
  obtain ⟨session, hsession, hle, hserves⟩ :=
    hinv.calling handler hhandler hphase
  exact ⟨session, hsession, hserves hle⟩

theorem CallbackInvariant.of_frame (hinv : dev.CallbackInvariant)
    (hcallback : dev'.callback = dev.callback)
    (hhandler : dev'.handler = dev.handler)
    (hsessions : dev'.sessions = dev.sessions)
    (hinstalled : dev'.installed = dev.installed)
    (hinFlight : ∀ index,
      (dev'.transfers index).inFlight = (dev.transfers index).inFlight)
    (hsession : ∀ index,
      (dev'.transfers index).session = (dev.transfers index).session)
    (hbefore : dev'.call.beforeInstall = true →
      dev.call.beforeInstall = true)
    (hsubmitted : ∀ index args, dev'.call.submittedFor index = some args →
      dev.call.submittedFor index = some args) :
    dev'.CallbackInvariant := by
  have hserves : ∀ session, dev.Serves session → dev'.Serves session := by
    intro session hold
    simpa [Serves, hinstalled, hcallback] using hold
  have hcurrent : ∀ args : StartCall Callback Ctx,
      dev'.currentSession args = dev.currentSession args := by
    intro args
    simp [currentSession, hsessions]
  constructor
  · rw [hinstalled, hsessions]
    exact hinv.bound
  · intro hcall
    rw [hinstalled, hsessions]
    exact hinv.pending (hbefore hcall)
  · intro index hflight
    rw [hinFlight] at hflight
    obtain ⟨session, hlabel, hold⟩ := hinv.labels index hflight
    exact ⟨session, (hsession index).trans hlabel, hserves session hold⟩
  · intro handler hsome hphase
    rw [hhandler] at hsome
    obtain ⟨session, hlabel, hle, hold⟩ := hinv.calling handler hsome hphase
    exact ⟨session, hlabel, hinstalled ▸ hle, hserves session hold⟩
  · intro handler hsome hphase
    rw [hhandler] at hsome
    rw [hinFlight]
    apply (hinv.resubmitting handler hsome hphase).imp_right
    rintro ⟨session, hlabel, hold⟩
    exact ⟨session, hlabel, hserves session hold⟩
  · intro index args hcall hflight
    rw [hinFlight] at hflight
    rw [hsession, hcurrent]
    exact hinv.current index args (hsubmitted index args hcall) hflight
  · intro index args hcall handler hsome hindex
    rw [hhandler] at hsome
    rw [hinFlight, hcurrent]
    exact hinv.handledCurrent index args (hsubmitted index args hcall)
      handler hsome hindex

theorem CallbackInvariant.of_stopFrame (hinv : dev.CallbackInvariant)
    (hframe : StopFrame dev dev₁)
    (hbefore : dev'.call.beforeInstall = false)
    (hsubmitted : ∀ index, dev'.call.submittedFor index = none)
    (hsame : dev'.transfers = dev₁.transfers ∧
      dev'.handler = dev₁.handler ∧ dev'.callback = dev₁.callback ∧
      dev'.sessions = dev₁.sessions ∧ dev'.installed = dev₁.installed) :
    dev'.CallbackInvariant := by
  obtain ⟨htransfers, hhandler, hcallback, hsessions, hinstalled⟩ := hsame
  apply hinv.of_frame
  · exact hcallback.trans hframe.callback
  · exact hhandler.trans hframe.handler
  · exact hsessions.trans hframe.sessions
  · exact hinstalled.trans hframe.installed
  · intro index
    rw [htransfers, hframe.inFlight]
  · intro index
    rw [htransfers, hframe.session]
  · simp [hbefore]
  · simp [hsubmitted]

theorem CallbackInvariant.begun {args : StartCall Callback Ctx}
    {outs : StartOutcomes} (hinv : dev.CallbackInvariant) :
    (dev.beginSession.goto
      (.start args outs .clearStreaming)).CallbackInvariant := by
  constructor
  · exact hinv.bound.trans (Nat.le_succ _)
  · intro _
    exact Nat.lt_succ_of_le hinv.bound
  · exact hinv.labels
  · exact hinv.calling
  · exact hinv.resubmitting
  · simp [goto, Call.submittedFor]
  · simp [goto, Call.submittedFor]

theorem submittedFor_of_submitted {args args' : StartCall Callback Ctx}
    {outs : StartOutcomes} {index k : TransferIndex} {pc : StartPc}
    (hpc : (∃ next, index.next = some next ∧ pc = .submit next) ∨
      (index.next = none ∧ pc = .setStreaming))
    (hsubmitted : (Call.start args outs pc).submittedFor k = some args') :
    args' = args ∧ (k < index ∨ k = index) := by
  rcases hpc with ⟨next, hnext, rfl⟩ | ⟨hnext, rfl⟩
  · simp only [Call.submittedFor] at hsubmitted
    split at hsubmitted
    next hlt =>
      exact ⟨(Option.some.inj hsubmitted).symm,
        (TransferIndex.lt_of_next hnext k).mp hlt⟩
    next => simp at hsubmitted
  · exact ⟨(Option.some.inj hsubmitted).symm,
      TransferIndex.le_of_next_none hnext k⟩

theorem CallbackInvariant.submitted {args : StartCall Callback Ctx}
    {outs : StartOutcomes} {index : TransferIndex} {pc : StartPc}
    (hinv : dev.CallbackInvariant)
    (hcall : dev.call = .start args outs (.submit index))
    (hpc : (∃ next, index.next = some next ∧ pc = .submit next) ∨
      (index.next = none ∧ pc = .setStreaming)) :
    (((dev.setEndpoint index args.direction.endpoint).putInFlight index
      (some (dev.currentSession args))).goto
        (.start args outs pc)).CallbackInvariant := by
  have hpending : dev.installed < dev.sessions :=
    hinv.pending (by simp [hcall, Call.beforeInstall])
  have hearlier : ∀ k, k < index → dev.call.submittedFor k = some args := by
    intro k hlt
    simp [hcall, Call.submittedFor, hlt]
  constructor
  · exact hinv.bound
  · intro _
    exact hpending
  · intro k hflight
    by_cases hk : k = index
    · -- the new session has not assigned its callback yet
      refine ⟨dev.currentSession args, by simp [goto, hk], fun hle => ?_⟩
      exact absurd hpending (Nat.not_lt.mpr hle)
    · have hold : (dev.transfers k).inFlight = true := by
        simpa [goto, hk] using hflight
      obtain ⟨session, hlabel, hserves⟩ := hinv.labels k hold
      exact ⟨session, by simpa [goto, hk] using hlabel, hserves⟩
  · exact hinv.calling
  · intro handler hsome hphase
    by_cases hk : handler.index = index
    · left
      simp [goto, hk]
    · apply (hinv.resubmitting handler hsome hphase).imp_left
      intro hold
      simpa [goto, hk] using hold
  · intro k args' hsubmitted hflight
    obtain ⟨rfl, hlt | rfl⟩ := submittedFor_of_submitted hpc hsubmitted
    · have hk : k ≠ index := hlt.ne
      have hold : (dev.transfers k).inFlight = true := by
        simpa [goto, hk] using hflight
      have hlabel := hinv.current k args' (hearlier k hlt) hold
      exact Eq.trans (by simp [goto, hk]) hlabel
    · simp [goto, currentSession, putInFlight, setEndpoint, setTransfer]
  · intro k args' hsubmitted handler hsome hindex
    obtain ⟨rfl, hlt | rfl⟩ := submittedFor_of_submitted hpc hsubmitted
    · have hk : k ≠ index := hlt.ne
      rcases hinv.handledCurrent k args' (hearlier k hlt) handler hsome hindex
        with hold | hold
      · left
        simpa [goto, hk] using hold
      · exact .inr hold
    · left
      simp [goto]

/-- When the callback is assigned, everything in flight belongs to the start
call that assigns it. -/
theorem CallbackInvariant.callbackInstalled {args : StartCall Callback Ctx}
    {outs : StartOutcomes} (hinv : dev.CallbackInvariant)
    (hcall : dev.call = .start args outs .setCallback)
    (hnotCalling : ∀ handler, dev.handler = some handler →
      handler.phase ≠ .callback) :
    ((dev.installCallback args.callback).goto
      (.start args outs .createThread)).CallbackInvariant := by
  have hsubmitted : ∀ index, dev.call.submittedFor index = some args := by
    intro index
    simp [hcall, Call.submittedFor]
  constructor
  · exact le_rfl
  · simp [goto, Call.beforeInstall]
  · intro index hflight
    exact ⟨dev.currentSession args,
      hinv.current index args (hsubmitted index) hflight, fun _ => rfl⟩
  · intro handler hsome hphase
    exact absurd hphase (hnotCalling handler hsome)
  · intro handler hsome hphase
    refine (hinv.handledCurrent handler.index args
      (hsubmitted handler.index) handler hsome rfl).imp_right ?_
    intro hlabel
    exact ⟨dev.currentSession args, hlabel, fun _ => rfl⟩
  · simp [goto, Call.submittedFor]
  · simp [goto, Call.submittedFor]

theorem CallbackInvariant.delivered {index : TransferIndex}
    {status : TransferStatus} (hinv : dev.CallbackInvariant)
    (hinFlight : (dev.transfers index).inFlight = true)
    (hpublished : status = .completed →
      ∀ session, (dev.transfers index).session = some session →
        session.number ≤ dev.installed) :
    ({ dev.takeOut index with
      handler := some {
        index := index
        session := (dev.transfers index).session
        phase := if status = .completed then .callback else .requestExit }
      } : Device Callback Ctx).CallbackInvariant := by
  obtain ⟨session, hlabel, hserves⟩ := hinv.labels index hinFlight
  have hremains : ∀ k, ((dev.takeOut index).transfers k).inFlight = true →
      k ≠ index ∧ (dev.transfers k).inFlight = true := by
    intro k hflight
    have hk : k ≠ index := by
      rintro rfl
      simp at hflight
    exact ⟨hk, by simpa [hk] using hflight⟩
  constructor
  · exact hinv.bound
  · exact hinv.pending
  · intro k hflight
    obtain ⟨hk, hold⟩ := hremains k hflight
    obtain ⟨session', hlabel', hserves'⟩ := hinv.labels k hold
    exact ⟨session', by simpa using hlabel', hserves'⟩
  · intro handler hsome hphase
    simp only [Option.some.injEq] at hsome
    subst handler
    have hstatus : status = .completed := by
      by_contra hne
      simp [hne] at hphase
    exact ⟨session, hlabel, hpublished hstatus session hlabel, hserves⟩
  · intro handler hsome hphase
    simp only [Option.some.injEq] at hsome
    subst handler
    split at hphase <;> contradiction
  · intro k args hcall hflight
    obtain ⟨hk, hold⟩ := hremains k hflight
    have hlabel' := hinv.current k args hcall hold
    exact Eq.trans (by simp) hlabel'
  · intro k args hcall handler hsome hindex
    simp only [Option.some.injEq] at hsome
    subst handler
    right
    obtain rfl : index = k := hindex
    exact hinv.current index args hcall hinFlight

theorem CallbackInvariant.handlerMoved {handler : Handler Callback}
    (hinv : dev.CallbackInvariant) (after : Handler Callback)
    (hhandler : dev.handler = some handler)
    (hafter : dev' = { dev with handler := some after, served := dev'.served })
    (hindex : after.index = handler.index)
    (hsession : after.session = handler.session)
    (hphase : after.phase = .requestExit ∨
      (after.phase = .resubmit ∧ handler.phase = .callback)) :
    dev'.CallbackInvariant := by
  rw [hafter]
  constructor
  · exact hinv.bound
  · exact hinv.pending
  · exact hinv.labels
  · intro other hsome hcalling
    simp only [Option.some.injEq] at hsome
    subst other
    rcases hphase with hexit | ⟨hresubmit, _⟩ <;> simp_all
  · intro other hsome hresubmitting
    simp only [Option.some.injEq] at hsome
    subst other
    rcases hphase with hexit | ⟨_, hcalling⟩
    · simp_all
    · obtain ⟨session, hlabel, _, hserves⟩ :=
        hinv.calling handler hhandler hcalling
      exact .inr ⟨session, hsession.trans hlabel, hserves⟩
  · exact hinv.current
  · intro k args hcall other hsome hk
    simp only [Option.some.injEq] at hsome
    subst other
    rw [hsession]
    exact hinv.handledCurrent k args hcall handler hhandler
      (hindex.symm.trans hk)

theorem CallbackInvariant.resubmitted {handler : Handler Callback}
    (hinv : dev.CallbackInvariant) (hhandler : dev.handler = some handler)
    (hphase : handler.phase = .resubmit)
    (hfree : (dev.transfers handler.index).inFlight = false) :
    ({ dev.putInFlight handler.index handler.session with
      handler := none } : Device Callback Ctx).CallbackInvariant := by
  constructor
  · exact hinv.bound
  · exact hinv.pending
  · intro k hflight
    by_cases hk : k = handler.index
    · rcases hinv.resubmitting handler hhandler hphase with
        hold | ⟨session, hlabel, hserves⟩
      · rw [hfree] at hold
        contradiction
      · exact ⟨session, by simpa [hk] using hlabel, hserves⟩
    · have hold : (dev.transfers k).inFlight = true := by
        simpa [hk] using hflight
      obtain ⟨session, hlabel, hserves⟩ := hinv.labels k hold
      exact ⟨session, by simpa [hk] using hlabel, hserves⟩
  · simp
  · simp
  · intro k args hcall hflight
    by_cases hk : k = handler.index
    · rcases hinv.handledCurrent k args hcall handler hhandler hk.symm with
        hold | hlabel
      · rw [hk, hfree] at hold
        contradiction
      · exact Eq.trans (by simp [hk]) hlabel
    · have hold : (dev.transfers k).inFlight = true := by
        simpa [hk] using hflight
      have hlabel := hinv.current k args hcall hold
      exact Eq.trans (by simp [hk]) hlabel
  · simp

theorem CallbackInvariant.keep {action : Action Callback Ctx}
    (hpublished : dev.publishedBefore action = true)
    (hmove : dev.Move action dev') (hinv : dev.CallbackInvariant) :
    dev'.CallbackInvariant := by
  cases hmove with
  | begun args outs _ _ => exact hinv.begun
  | submitted args outs index pc hcall _ _ hpc =>
      exact hinv.submitted hcall hpc
  | callbackInstalled args outs hcall =>
      apply hinv.callbackInstalled hcall
      intro handler hhandler
      simpa [publishedBefore, hcall, hhandler] using hpublished
  | delivered index status hinFlight _ =>
      apply hinv.delivered hinFlight
      rintro rfl session hlabel
      simpa [publishedBefore, hlabel] using hpublished
  | callbackCalled ok handler callback hhandler hphase =>
      apply hinv.handlerMoved
        { handler with phase := if ok then .resubmit else .requestExit }
        hhandler rfl rfl rfl
      cases ok
      · exact .inl rfl
      · exact .inr ⟨rfl, hphase⟩
  | resubmitted handler hhandler hphase hfree =>
      exact hinv.resubmitted hhandler hphase hfree
  | resubmitRefused ok handler hhandler =>
      exact hinv.handlerMoved { handler with phase := .requestExit }
        hhandler rfl rfl rfl (.inl rfl)
  | exitRequested ok handler hhandler =>
      constructor
      · exact hinv.bound
      · exact hinv.pending
      · exact hinv.labels
      · simp [requestExit]
      · simp [requestExit]
      · exact hinv.current
      · simp [requestExit]
  | stopAt outs pc next dev₁ _ hstep =>
      exact hinv.of_stopFrame (stopFrame_of_stopStep hstep) rfl
        (fun _ => rfl) ⟨rfl, rfl, rfl, rfl, rfl⟩
  | stopDone outs pc code dev₁ _ hstep =>
      exact hinv.of_stopFrame (stopFrame_of_stopStep hstep) rfl
        (fun _ => rfl) ⟨rfl, rfl, rfl, rfl, rfl⟩
  | closeStopRx wasStarted outs1 outs2 pc next dev₁ _ hstep =>
      exact hinv.of_stopFrame (stopFrame_of_stopStep hstep) rfl
        (fun _ => rfl) ⟨rfl, rfl, rfl, rfl, rfl⟩
  | closeStopTx wasStarted outs1 outs2 result1 pc next dev₁ _ hstep =>
      exact hinv.of_stopFrame (stopFrame_of_stopStep hstep) rfl
        (fun _ => rfl) ⟨rfl, rfl, rfl, rfl, rfl⟩
  | entered call hcall =>
      apply hinv.of_frame <;> simp [goto]
  | ctxStored args outs hcall =>
      cases hdir : args.direction <;> apply hinv.of_frame <;>
        simp [storeCtx, goto, Call.beforeInstall, Call.submittedFor]
  | submitRefused args outs index hcall =>
      apply hinv.of_frame
      · rfl
      · rfl
      · rfl
      · rfl
      · simp [finish]
      · simp [finish]
      · simp [finish, Call.beforeInstall]
      · simp [finish, Call.submittedFor]
  | transferFreed wasStarted outs1 outs2 result1 result2 index pc hcall hpc =>
      apply hinv.of_frame
      · rfl
      · rfl
      · rfl
      · rfl
      · simp [goto]
      · simp [goto]
      · simp [goto, Call.beforeInstall]
      · simp [goto, Call.submittedFor]
  | _ =>
      apply hinv.of_frame <;>
        simp_all [goto, finish, Call.beforeInstall, Call.submittedFor]

theorem CallbackInvariant.isLocal :
    LocalInvariant (fun dev action => dev.publishedBefore action = true)
      (CallbackInvariant : Device Callback Ctx → Prop) where
  fresh := by
    constructor <;> simp [fresh, Call.beforeInstall, Call.submittedFor]
  keep := fun _ _ _ hpublished hstep hinv =>
    hinv.keep hpublished (move_of_localStep hstep)

end Device

/-- In every run in which no transfer completes before its start call has
assigned `device->callback`, and no assignment overtakes a completion handler,
each completed transfer is handed to the callback given to the start call that
submitted it. -/
theorem callsSubmitter_of_published [DecidableEq D]
    {events : List (Event D Callback Ctx)} {d : D} {dev : Device Callback Ctx}
    (hpublished : EventRun.Along State.step
      (OnDevice fun dev action => dev.publishedBefore action = true)
      State.initial events)
    (hdev : deviceAfter events d = some dev) :
    dev.CallsSubmitter :=
  (Device.CallbackInvariant.isLocal.of_along hpublished hdev).callsSubmitter

theorem callsSubmitter_of_published_twoDevices :
    let started : StartOutcomes := ⟨true, fun _ => true, true⟩
    let events : List (Event Bool ℕ ℕ) :=
      [.open false, .enter false (.startRx 0 0 started)] ++ apiSteps false 13 ++
      [.open true, .enter true (.startTx 1 1 started)] ++ apiSteps true 13 ++
      [.thread false false,
        .deliver (.transferThread false) true 2 .completed]
    ∃ dev, deviceAfter events true = some dev ∧ dev.CallsSubmitter := by
  intro started events
  obtain ⟨dev, hdev⟩ : ∃ dev, deviceAfter events true = some dev :=
    Option.isSome_iff_exists.mp (by decide)
  exact ⟨dev, hdev, callsSubmitter_of_published (by decide) hdev⟩

/-- The second submission of the first start call fails; the transfer already
submitted completes inside the next control request of the application, while
`device->callback` is still `NULL`. -/
theorem failed_start_calls_null :
    let events : List (Event Unit ℕ ℕ) :=
      [.open (), .enter () (.startRx 7 0 ⟨true, fun index => index = 0, true⟩)] ++
        apiSteps () 7 ++
      [.enter () (.control .success),
        .deliver (.apiCall ()) () 0 .completed]
    ∃ dev handler, deviceAfter events () = some dev ∧
      dev.handler = some handler ∧ handler.phase = .callback ∧
      handler.session.map Session.callback = some 7 ∧ dev.callback = none := by
  intro events
  have hsome : (deviceAfter events ()).map (fun dev =>
      (dev.handler.map fun handler =>
        (handler.phase, handler.session.map Session.callback), dev.callback)) =
      some (some (.callback, some 7), none) := by rfl
  obtain ⟨dev, hdev, heq⟩ := Option.map_eq_some_iff.mp hsome
  obtain ⟨hhandler, hcallback⟩ := Prod.mk.inj heq
  obtain ⟨handler, hhandler, hfields⟩ := Option.map_eq_some_iff.mp hhandler
  obtain ⟨hphase, hsession⟩ := Prod.mk.inj hfields
  exact ⟨dev, handler, hdev, hhandler, hphase, hsession, hcallback⟩

end HackRF.Streaming
