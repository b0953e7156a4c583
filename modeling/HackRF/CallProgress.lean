import HackRF.ThreadExit

/-!
# Every API call can return

An API call waits in two places: in a synchronous control transfer, for the
completion handler that runs inside it, and in `pthread_join`, for the
transfer thread, which may in turn be inside a completion handler, of this
device or of another one.  A stop call requests exit before it joins, and a
handler ends unless it calls a `NULL` callback.  So in every reachable state
each call in progress can return, after steps of the call itself, of its
transfer thread and of completion handlers only, and the number of these
steps is bounded.  The calls are those of the machine, so without
`hackrf_cpld_write` and its loop of bulk transfers.
-/

namespace HackRF.Streaming

variable {D Callback Ctx : Type*}

/-! ## The statements left to a call -/

def StartPc.statementsLeft : StartPc → ℕ
  | .modeRequest => 13
  | .storeCtx => 12
  | .testStarted => 11
  | .clearStreaming => 10
  | .clearDoExit => 9
  | .submit index => 8 - index
  | .setStreaming => 4
  | .setCallback => 3
  | .createThread => 2
  | .setStarted => 1

def StopPc.statementsLeft : StopPc → ℕ
  | .modeRequest => 8
  | .requestExit => 7
  | .join => 6
  | .clearStarted => 5
  | .cancel index => 4 - index

def StopNext.statementsLeft : StopNext → ℕ
  | .at pc => pc.statementsLeft
  | .done _ => 0

def ClosePc.statementsLeft : ClosePc → ℕ
  | .stopRx pc => pc.statementsLeft + 14
  | .stopTx _ pc => pc.statementsLeft + 6
  | .usbClose _ _ => 6
  | .freeTransfer _ _ index => 5 - index
  | .freeDevice _ _ => 1

def Call.statementsLeft : Call Callback Ctx → ℕ
  | .idle => 0
  | .control _ => 1
  | .start _ _ pc => pc.statementsLeft
  | .stop _ pc => pc.statementsLeft
  | .close _ _ _ pc => pc.statementsLeft

/-- The call is one that may wait for the transfer thread. -/
def Call.stops : Call Callback Ctx → Bool
  | .stop _ _ => true
  | .close _ _ _ _ => true
  | _ => false

/-- The steps left to the call in progress, and to the transfer thread if the
call may wait for it. -/
def Device.work (dev : Device Callback Ctx) : ℕ :=
  dev.call.statementsLeft +
    if dev.call.stops then dev.transferThread.stepsLeft else 0

theorem Device.work_le (dev : Device Callback Ctx) : dev.work ≤ 24 := by
  have hthread : dev.transferThread.stepsLeft ≤ 2 := by
    cases dev.transferThread <;> simp [ThreadState.stepsLeft]
  have hstop : ∀ pc : StopPc, pc.statementsLeft ≤ 8 := by
    intro pc
    cases pc <;> simp [StopPc.statementsLeft]
    omega
  unfold work
  cases dev.call with
  | idle | control result => simp [Call.statementsLeft, Call.stops]
  | start args outs pc =>
      cases pc <;> simp [Call.statementsLeft, Call.stops, StartPc.statementsLeft]
      omega
  | stop outs pc =>
      have hpc := hstop pc
      simp only [Call.statementsLeft, Call.stops, if_true]
      omega
  | close wasStarted outs1 outs2 pc =>
      have hpc : pc.statementsLeft ≤ 22 := by
        cases pc with
        | stopRx pc | stopTx result1 pc =>
            have hpc := hstop pc
            simp only [ClosePc.statementsLeft]
            omega
        | _ =>
            simp only [ClosePc.statementsLeft]
            omega
      simp only [Call.statementsLeft, Call.stops, if_true]
      omega

def Slot.work : Slot Callback Ctx → ℕ
  | .opened dev => dev.work
  | .closed _ => 0

/-- The stop call, or the half of a close call, that is at its
`pthread_join`. -/
def Call.joining : Call Callback Ctx → Bool
  | .stop _ .join => true
  | .close _ _ _ (.stopRx .join) => true
  | .close _ _ _ (.stopTx _ .join) => true
  | _ => false

def Device.waitsForThread (dev : Device Callback Ctx) : Prop :=
  dev.call.joining = true ∧ dev.transferThreadStarted = true ∧
    dev.transferThread ≠ .exited

namespace Device

variable {dev dev' dev₁ : Device Callback Ctx}

theorem StopMove.work_lt {outs : StopOutcomes} {pc : StopPc}
    {next : StopNext} (hmove : StopMove outs dev pc next dev₁) :
    next.statementsLeft < pc.statementsLeft ∧
      dev₁.transferThread.stepsLeft ≤ dev.transferThread.stepsLeft := by
  cases hmove with
  | joined hstarted hjoin hthread =>
      constructor
      · simp [StopNext.statementsLeft, StopPc.statementsLeft]
      · exact Nat.zero_le _
  | cancelled index next hnext =>
      have hlt := TransferIndex.lt_of_next hnext index
      have hbound : index.val < 4 := index.isLt
      simp only [StopNext.statementsLeft, StopPc.statementsLeft,
        cancelTransfer, setTransfer, Nat.le_refl, and_true]
      simp only [Fin.lt_def, or_true, iff_true] at hlt
      omega
  | lastCancelled index hnext =>
      have hbound : index.val < 4 := index.isLt
      simp only [StopNext.statementsLeft, StopPc.statementsLeft,
        cancelTransfer, setTransfer, Nat.le_refl, and_true]
      omega
  | _ => simp [StopNext.statementsLeft, StopPc.statementsLeft, requestExit]

theorem stopStep_some (outs : StopOutcomes) (pc : StopPc)
    (hready : pc = .join → dev.transferThreadStarted = true →
      dev.transferThread = .exited) :
    ∃ next dev₁, dev.stopStep outs pc = some (next, dev₁) := by
  cases pc with
  | modeRequest =>
      cases hmode : outs.mode <;> simp [stopStep, setTransceiverMode, hmode]
  | requestExit => simp [stopStep]
  | join =>
      simp only [stopStep]
      split_ifs with hstarted hjoin hthread
      · simp
      · simp
      · simp
      · exact absurd (hready rfl (by simpa using hstarted)) hthread
  | clearStarted => simp [stopStep]
  | cancel index => cases hnext : index.next <;> simp [stopStep, hnext]

@[simp] theorem work_finish (code : HackrfError) :
    (dev.finish code).work = 0 := rfl

@[simp] theorem work_goto_start (args : StartCall Callback Ctx)
    (outs : StartOutcomes) (pc : StartPc) :
    (dev.goto (.start args outs pc)).work = pc.statementsLeft := rfl

theorem startStep_work_lt {args : StartCall Callback Ctx}
    {outs : StartOutcomes} {pc : StartPc}
    (hcall : dev.call = .start args outs pc) :
    (dev.startStep args outs pc).work < dev.work := by
  have hwork : dev.work = pc.statementsLeft := by
    simp [work, hcall, Call.statementsLeft, Call.stops]
  rw [hwork]
  cases pc with
  | modeRequest =>
      cases hmode : outs.mode <;>
        simp [startStep, setTransceiverMode, hmode, StartPc.statementsLeft]
  | testStarted =>
      cases hstarted : dev.transferThreadStarted <;>
        simp [startStep, hstarted, StartPc.statementsLeft]
  | submit index =>
      have hbound : index.val < 4 := index.isLt
      rcases submitTransfer_cases (outs.submit index) index
          (some (dev.currentSession args))
          (dev.setEndpoint index args.direction.endpoint) with
        ⟨_, _, heq⟩ | ⟨_, heq⟩
      · simp only [startStep, heq]
        cases hnext : index.next with
        | some next =>
            have hlt := (TransferIndex.lt_of_next hnext index).mpr (.inr rfl)
            simp only [work_goto_start, StartPc.statementsLeft]
            simp only [Fin.lt_def] at hlt
            omega
        | none =>
            simp only [work_goto_start, StartPc.statementsLeft]
            omega
      · simp only [startStep, heq, work_finish, StartPc.statementsLeft]
        omega
  | createThread =>
      cases hcreate : outs.create <;>
        simp [startStep, hcreate, StartPc.statementsLeft]
  | _ => simp [startStep, StartPc.statementsLeft]

theorem stopped_work_lt {call : Call Callback Ctx}
    (hstops : dev.call.stops = true)
    (hlower : call.statementsLeft < dev.call.statementsLeft)
    (hthread : dev₁.transferThread.stepsLeft ≤ dev.transferThread.stepsLeft) :
    (dev₁.goto call).work < dev.work := by
  have hbefore : dev.work =
      dev.call.statementsLeft + dev.transferThread.stepsLeft := by
    simp [work, hstops]
  have hafter : (dev₁.goto call).work ≤
      call.statementsLeft + dev₁.transferThread.stepsLeft := by
    cases hcall : call.stops <;> simp [work, goto, hcall]
  omega

theorem statementsLeft_le_work : dev.call.statementsLeft ≤ dev.work :=
  Nat.le_add_right _ _

theorem closeStep_work_lt {wasStarted : Bool} {outs1 outs2 : StopOutcomes}
    {pc : ClosePc} (hcall : dev.call = .close wasStarted outs1 outs2 pc)
    (hpc : ∀ result1 result2, pc ≠ .freeDevice result1 result2)
    (hready : dev.call.joining = true → dev.transferThreadStarted = true →
      dev.transferThread = .exited) :
    ∃ dev', dev.closeStep wasStarted outs1 outs2 pc = some dev' ∧
      dev'.work < dev.work := by
  have hstops : dev.call.stops = true := by
    rw [hcall]
    rfl
  have hlower : ∀ pc' : ClosePc, pc'.statementsLeft < pc.statementsLeft →
      (Call.close wasStarted outs1 outs2 pc' :
        Call Callback Ctx).statementsLeft < dev.call.statementsLeft := by
    intro pc' hlt
    rw [hcall]
    exact hlt
  cases pc with
  | stopRx pc =>
      obtain ⟨next, dev₁, hstep⟩ := stopStep_some outs1 pc
        (fun hpc => hready (by simp [hcall, hpc, Call.joining]))
      obtain ⟨hlt, hthread⟩ := (stopMove_of_stopStep hstep).work_lt
      refine ⟨_, by rw [closeStep, hstep]; rfl, ?_⟩
      cases next with
      | «at» pc' =>
          apply stopped_work_lt hstops (hlower _ _) hthread
          simp only [StopNext.statementsLeft] at hlt
          simp only [ClosePc.statementsLeft]
          omega
      | done code =>
          apply stopped_work_lt hstops (hlower _ _) hthread
          simp only [StopNext.statementsLeft] at hlt
          show 8 + 6 < pc.statementsLeft + 14
          omega
  | stopTx result1 pc =>
      obtain ⟨next, dev₁, hstep⟩ := stopStep_some outs2 pc
        (fun hpc => hready (by simp [hcall, hpc, Call.joining]))
      obtain ⟨hlt, hthread⟩ := (stopMove_of_stopStep hstep).work_lt
      refine ⟨_, by rw [closeStep, hstep]; rfl, ?_⟩
      cases next with
      | «at» pc' =>
          apply stopped_work_lt hstops (hlower _ _) hthread
          simp only [StopNext.statementsLeft] at hlt
          simp only [ClosePc.statementsLeft]
          omega
      | done code =>
          apply stopped_work_lt hstops (hlower _ _) hthread
          simp only [StopNext.statementsLeft] at hlt
          simp only [ClosePc.statementsLeft]
          omega
  | usbClose result1 result2 =>
      refine ⟨_, rfl, ?_⟩
      apply stopped_work_lt hstops (hlower _ _) (Nat.le_refl _)
      simp [ClosePc.statementsLeft]
  | freeTransfer result1 result2 index =>
      have hbound : index.val < 4 := index.isLt
      cases hnext : index.next with
      | some next =>
          have hlt := (TransferIndex.lt_of_next hnext index).mpr (.inr rfl)
          simp only [Fin.lt_def] at hlt
          refine ⟨_, by rw [closeStep, hnext], ?_⟩
          apply stopped_work_lt hstops (hlower _ _) (Nat.le_refl _)
          simp only [ClosePc.statementsLeft]
          omega
      | none =>
          refine ⟨_, by rw [closeStep, hnext], ?_⟩
          apply stopped_work_lt hstops (hlower _ _) (Nat.le_refl _)
          simp only [ClosePc.statementsLeft]
          omega
  | freeDevice result1 result2 => exact absurd rfl (hpc result1 result2)

/-- A call which does not wait for the transfer thread has a next
statement. -/
theorem apiStep_work_lt (hbusy : dev.call ≠ .idle)
    (hready : ¬dev.waitsForThread) :
    ∃ slot, dev.apiStep = some slot ∧ slot.work < dev.work := by
  have hexited : dev.call.joining = true →
      dev.transferThreadStarted = true → dev.transferThread = .exited := by
    intro hjoining hstarted
    by_contra hne
    exact hready ⟨hjoining, hstarted, hne⟩
  have hleft := dev.statementsLeft_le_work
  unfold apiStep
  cases hcall : dev.call with
  | idle => exact absurd hcall hbusy
  | control result =>
      rw [hcall] at hleft
      exact ⟨_, rfl, hleft⟩
  | start args outs pc => exact ⟨_, rfl, startStep_work_lt hcall⟩
  | stop outs pc =>
      obtain ⟨next, dev₁, hstep⟩ := stopStep_some outs pc
        (fun hpc => hexited (by simp [hcall, hpc, Call.joining]))
      obtain ⟨hlt, hthread⟩ := (stopMove_of_stopStep hstep).work_lt
      cases next with
      | «at» pc' =>
          refine ⟨_, by simp only [hstep]; rfl, ?_⟩
          apply stopped_work_lt (by rw [hcall]; rfl) _ hthread
          rw [hcall]
          exact hlt
      | done code =>
          refine ⟨_, by simp only [hstep]; rfl, ?_⟩
          rw [hcall] at hleft
          exact Nat.lt_of_lt_of_le hlt hleft
  | close wasStarted outs1 outs2 pc =>
      by_cases hpc : ∃ result1 result2, pc = .freeDevice result1 result2
      · obtain ⟨result1, result2, rfl⟩ := hpc
        rw [hcall] at hleft
        exact ⟨_, rfl, hleft⟩
      · have hne : ∀ result1 result2, pc ≠ .freeDevice result1 result2 :=
          fun result1 result2 heq => hpc ⟨result1, result2, heq⟩
        obtain ⟨dev', hstep, hlt⟩ := closeStep_work_lt hcall hne hexited
        refine ⟨.opened dev', ?_, hlt⟩
        cases pc with
        | freeDevice result1 result2 => exact absurd rfl (hne result1 result2)
        | _ => simp only [hstep, Option.map_some]

/-! ## A call that joins has requested exit -/

def ExitInvariant (dev : Device Callback Ctx) : Prop :=
  dev.call.joining = true → dev.doExit = true

theorem StopMove.exit {outs : StopOutcomes} {pc : StopPc}
    (hmove : StopMove outs dev pc (.at .join) dev₁) : dev₁.doExit = true := by
  cases hmove
  rfl

theorem ExitInvariant.keep {action : Action Callback Ctx}
    (hmove : dev.Move action dev') (hinv : dev.ExitInvariant) :
    dev'.ExitInvariant := by
  unfold ExitInvariant at hinv ⊢
  intro hjoining
  cases hmove with
  | entered call hcall =>
      cases call <;> simp [goto, ApiCall.entry, Call.joining] at hjoining
  | stopAt outs pc next dev₁ hcall hstep =>
      cases next with
      | join => exact (stopMove_of_stopStep hstep).exit
      | _ => simp [goto, Call.joining] at hjoining
  | closeStopRx wasStarted outs1 outs2 pc next dev₁ hcall hstep =>
      cases next with
      | «at» next =>
          cases next with
          | join => exact (stopMove_of_stopStep hstep).exit
          | _ => simp [goto, Call.joining] at hjoining
      | done result1 => simp [goto, Call.joining] at hjoining
  | closeStopTx wasStarted outs1 outs2 result1 pc next dev₁ hcall hstep =>
      cases next with
      | «at» next =>
          cases next with
          | join => exact (stopMove_of_stopStep hstep).exit
          | _ => simp [goto, Call.joining] at hjoining
      | done result2 => simp [goto, Call.joining] at hjoining
  | submitted args outs index pc hcall _ _ hpc =>
      rcases hpc with ⟨next, _, rfl⟩ | ⟨_, rfl⟩ <;>
        simp [goto, Call.joining] at hjoining
  | transferFreed wasStarted outs1 outs2 result1 result2 index pc hcall hpc =>
      rcases hpc with ⟨next, rfl⟩ | rfl <;>
        simp [goto, Call.joining] at hjoining
  | threadWaits | threadExits | eventsHandled | eventsFailed
  | delivered | callbackCalled | resubmitted | resubmitRefused =>
      exact hinv hjoining
  | exitRequested => rfl
  | _ => simp [goto, finish, Call.joining] at hjoining

theorem ExitInvariant.isLocal :
    LocalInvariant (fun _ _ => True)
      (ExitInvariant : Device Callback Ctx → Prop) where
  fresh := by
    intro hjoining
    cases hjoining
  keep := fun _ _ _ _ hstep hinv => hinv.keep (move_of_localStep hstep)

theorem hasThread_of_joining (hthread : dev.ThreadInvariant)
    (hjoining : dev.call.joining = true) :
    dev.transferThreadStarted = dev.hasThread := by
  unfold ThreadInvariant at hthread
  cases hcall : dev.call with
  | stop outs pc =>
      rw [hcall] at hthread hjoining
      cases pc with
      | join => exact hthread
      | _ => cases hjoining
  | close wasStarted outs1 outs2 pc =>
      rw [hcall] at hthread hjoining
      cases pc with
      | stopRx pc | stopTx result1 pc =>
          cases pc with
          | join => exact hthread
          | _ => cases hjoining
      | _ => cases hjoining
  | _ => simp [hcall, Call.joining] at hjoining

theorem threadStep_work_lt (hthread : dev.ThreadInvariant)
    (hexit : dev.ExitInvariant) (hwaits : dev.waitsForThread) :
    ∃ dev', dev.threadStep false = some dev' ∧ dev'.work < dev.work := by
  obtain ⟨hjoining, hstarted, hne⟩ := hwaits
  have hstops : dev.call.stops = true := by
    revert hjoining
    cases hcall : dev.call <;> simp [Call.joining, Call.stops]
  have hdoExit := hexit hjoining
  have hpresent : dev.hasThread = true :=
    (hasThread_of_joining hthread hjoining).symm.trans hstarted
  cases hstate : dev.transferThread with
  | absent => simp [hasThread, hstate] at hpresent
  | exited => exact absurd hstate hne
  | atTest =>
      refine ⟨{ dev with transferThread := .exited }, ?_, ?_⟩
      · simp [threadStep, hstate, hdoExit]
      · simp [work, hstops, hstate, ThreadState.stepsLeft]
  | handlingEvents =>
      refine ⟨{ dev with transferThread := .atTest }, ?_, ?_⟩
      · simp [threadStep, hstate]
      · simp [work, hstops, hstate, ThreadState.stepsLeft]

/-- A call in progress has a next step, its own or one of the transfer
thread. -/
theorem localStep_work_lt (hthread : dev.ThreadInvariant)
    (hexit : dev.ExitInvariant) (hbusy : dev.call ≠ .idle) :
    ∃ action slot, (action = .api ∨ action = .thread false) ∧
      localStep (.opened dev) action = some slot ∧ slot.work < dev.work := by
  by_cases hwaits : dev.waitsForThread
  · obtain ⟨dev', hstep, hlt⟩ := threadStep_work_lt hthread hexit hwaits
    exact ⟨.thread false, .opened dev', .inr rfl, by simp [localStep, hstep], hlt⟩
  · obtain ⟨slot, hstep, hlt⟩ := apiStep_work_lt hbusy hwaits
    exact ⟨.api, slot, .inl rfl, hstep, hlt⟩

/-- Only a delivery and the handler itself touch the handler. -/
theorem Move.handler_eq {action : Action Callback Ctx}
    (hmove : dev.Move action dev')
    (hdeliver : ∀ index status, action ≠ .deliver index status)
    (hhandler : ∀ ok, action ≠ .handler ok) : dev'.handler = dev.handler := by
  cases hmove with
  | stopAt outs pc next dev₁ hcall hstep =>
      exact (stopFrame_of_stopStep hstep).handler
  | stopDone outs pc code dev₁ hcall hstep =>
      exact (stopFrame_of_stopStep hstep).handler
  | closeStopRx wasStarted outs1 outs2 pc next dev₁ hcall hstep =>
      exact (stopFrame_of_stopStep hstep).handler
  | closeStopTx wasStarted outs1 outs2 result1 pc next dev₁ hcall hstep =>
      exact (stopFrame_of_stopStep hstep).handler
  | ctxStored args outs hcall =>
      cases hdir : args.direction <;> simp [storeCtx, goto]
  | delivered index status hinFlight hfree =>
      exact absurd rfl (hdeliver index status)
  | callbackCalled ok handler callback _ _ _ => exact absurd rfl (hhandler ok)
  | resubmitted handler _ _ _ => exact absurd rfl (hhandler true)
  | resubmitRefused ok handler _ _ _ => exact absurd rfl (hhandler ok)
  | exitRequested ok handler _ _ => exact absurd rfl (hhandler ok)
  | _ => rfl

end Device

/-! ## The event lock -/

variable [DecidableEq D]

def State.Reachable (state : State D Callback Ctx) : Prop :=
  ∃ events, EventRun.run State.step State.initial events = some state

theorem State.Reachable.step {state next : State D Callback Ctx}
    {event : Event D Callback Ctx} (hreach : state.Reachable)
    (hstep : state.step event = some next) : next.Reachable := by
  obtain ⟨events, hrun⟩ := hreach
  refine ⟨events ++ [event], ?_⟩
  rw [EventRun.run_append, hrun]
  simp [hstep]

theorem State.Reachable.holds {Inv : Device Callback Ctx → Prop}
    (hlocal : LocalInvariant (fun _ _ => True) Inv)
    {state : State D Callback Ctx} (hreach : state.Reachable) {d : D}
    {dev : Device Callback Ctx} (hslot : state.slots d = .opened dev) :
    Inv dev := by
  obtain ⟨events, hrun⟩ := hreach
  have hdev : deviceAfter events d = some dev := by
    simp [deviceAfter, hrun, State.device, hslot]
  exact hlocal.of_reachable hdev

theorem State.step_eq_some {state next : State D Callback Ctx}
    {event : Event D Callback Ctx} :
    state.step event = some next ↔
      state.enabled event = true ∧ ∃ slot,
        localStep (state.slots event.device) event.action = some slot ∧
        next = {
          slots := Function.update state.slots event.device slot
          eventLock := state.nextLock event slot } := by
  unfold State.step
  split_ifs with henabled
  · simp only [henabled, Option.map_eq_some_iff, true_and]
    exact exists_congr fun slot => and_congr_right fun _ => eq_comm
  · simp [henabled]

def Slot.inHandler : Slot Callback Ctx → Prop
  | .opened dev => dev.handler ≠ none
  | .closed _ => False

/-- While the lock is held, its owner is open and has a completion handler in
progress. -/
def State.LockInvariant (state : State D Callback Ctx) : Prop :=
  ∀ executor owner, state.eventLock = some (executor, owner) →
    (state.slots owner).inHandler

omit [DecidableEq D] in
theorem Slot.inHandler_keep {slot : Slot Callback Ctx}
    {dev' : Device Callback Ctx} {action : Action Callback Ctx}
    (hstep : localStep slot action = some (.opened dev'))
    (hdeliver : ∀ index status, action ≠ .deliver index status)
    (hhandler : ∀ ok, action ≠ .handler ok)
    (hin : slot.inHandler) : (Slot.opened dev').inHandler := by
  cases slot with
  | closed result => exact hin.elim
  | opened dev =>
      have hsame := (Device.move_of_localStep hstep).handler_eq hdeliver hhandler
      simpa [Slot.inHandler, hsame] using hin

theorem State.LockInvariant.keep {state next : State D Callback Ctx}
    {event : Event D Callback Ctx} (hstep : state.step event = some next)
    (hinv : state.LockInvariant) : next.LockInvariant := by
  obtain ⟨henabled, slot, hlocal, rfl⟩ := State.step_eq_some.mp hstep
  -- A step that leaves the lock alone keeps its owner in the handler.
  have hframe : ∀ dev', slot = .opened dev' →
      (∀ index status, event.action ≠ .deliver index status) →
      (∀ ok, event.action ≠ .handler ok) →
      ∀ executor owner, state.eventLock = some (executor, owner) →
        (Function.update state.slots event.device slot owner).inHandler := by
    intro dev' hslot hdeliver hhandler executor owner hlock
    by_cases howner : owner = event.device
    · subst howner
      rw [Function.update_self, hslot]
      exact Slot.inHandler_keep (hslot ▸ hlocal) hdeliver hhandler
        (hinv executor _ hlock)
    · rw [Function.update_of_ne howner]
      exact hinv executor owner hlock
  intro executor owner hlock
  cases event with
  | deliver by_ d index status =>
      cases slot with
      | closed result => cases localStep_closed hlocal
      | opened dev' =>
          obtain rfl : d = owner := by
            simp only [State.nextLock, Option.some.injEq, Prod.mk.injEq] at hlock
            exact hlock.2
          simp only [Event.device, Function.update_self, Slot.inHandler]
          cases hslot : state.slots d with
          | closed result => simp [hslot, Event.device, Event.action, localStep] at hlocal
          | opened dev =>
              simp only [Event.device, Event.action, hslot] at hlocal
              have hmove := Device.move_of_localStep hlocal
              cases hmove
              simp
  | handler d ok =>
      cases slot with
      | closed result => cases localStep_closed hlocal
      | opened dev' =>
          simp only [State.nextLock] at hlock
          split_ifs at hlock with hended
          have howner : owner = d := by
            simpa [State.enabled, hlock] using henabled
          subst howner
          simpa [Event.device, Slot.inHandler] using hended
  | api d =>
      cases slot with
      | opened dev' =>
          apply hframe dev' rfl _ _ executor owner hlock
          · simp [Event.action]
          · simp [Event.action]
      | closed result =>
          simp only [State.nextLock, Option.filter_eq_some_iff] at hlock
          obtain ⟨hlock, hne⟩ := hlock
          have howner : owner ≠ d := by simpa using hne
          have hkept : Function.update state.slots d (.closed result) owner =
              state.slots owner := Function.update_of_ne howner _ _
          simp only [Event.device]
          rw [hkept]
          exact hinv executor owner hlock
  | _ =>
      cases slot with
      | closed result => cases localStep_closed hlocal
      | opened dev' =>
          apply hframe dev' rfl _ _ executor owner hlock
          · simp [Event.action]
          · simp [Event.action]

theorem State.Reachable.lockInvariant {state : State D Callback Ctx}
    (hreach : state.Reachable) : state.LockInvariant := by
  obtain ⟨events, hrun⟩ := hreach
  apply EventRun.invariant_of_run State.LockInvariant
    (fun before event after hstep hinv => hinv.keep hstep) _ hrun
  intro executor owner hlock
  cases hlock

/-! ## The completion handler that a call waits for -/

def Executor.device : Executor D → D
  | .transferThread d => d
  | .apiCall d => d

def HandlerPhase.stepsLeft : HandlerPhase → ℕ
  | .callback => 2
  | .resubmit => 2
  | .requestExit => 1

def Slot.handlerSteps : Slot Callback Ctx → ℕ
  | .opened dev => dev.handler.elim 0 fun handler => handler.phase.stepsLeft
  | .closed _ => 0

/-- The steps left to the completion handler that runs inside the API call on
the device or on its transfer thread, if its callback and its resubmission
fail. -/
def State.handlerWork (d : D) (state : State D Callback Ctx) : ℕ :=
  match state.eventLock with
  | some (executor, owner) =>
      if executor.device = d then (state.slots owner).handlerSteps else 0
  | none => 0

theorem State.handlerWork_le (d : D) (state : State D Callback Ctx) :
    state.handlerWork d ≤ 2 := by
  have hslot : ∀ slot : Slot Callback Ctx, slot.handlerSteps ≤ 2 := by
    intro slot
    cases slot with
    | closed result => exact Nat.zero_le _
    | opened dev =>
        cases hhandler : dev.handler with
        | none => simp [Slot.handlerSteps, hhandler]
        | some handler =>
            cases hphase : handler.phase <;>
              simp [Slot.handlerSteps, hhandler, hphase, HandlerPhase.stepsLeft]
  unfold State.handlerWork
  split
  · split_ifs
    · exact hslot _
    · exact Nat.zero_le _
  · exact Nat.zero_le _

def Device.callsNull (dev : Device Callback Ctx) : Bool :=
  dev.callback.isNone && dev.handler.any fun handler =>
    handler.phase = .callback

/-- The completion handler that runs inside the API call on the device, or on
its transfer thread, is about to call a `NULL` callback. -/
def State.callsNull (d : D) (state : State D Callback Ctx) : Bool :=
  match state.eventLock with
  | some (executor, owner) =>
      executor.device = d && (match state.slots owner with
        | .opened dev => dev.callsNull
        | .closed _ => false)
  | none => false

theorem State.callsNull_iff {state : State D Callback Ctx} {d : D} :
    state.callsNull d = true ↔ ∃ executor owner dev,
      state.eventLock = some (executor, owner) ∧ executor.device = d ∧
        state.slots owner = .opened dev ∧ dev.callsNull = true := by
  unfold State.callsNull
  cases hlock : state.eventLock with
  | none => simp
  | some lock =>
      obtain ⟨executor, owner⟩ := lock
      cases hslot : state.slots owner <;> simp [hslot]

omit [DecidableEq D] in
theorem Device.handlerStep_some {dev : Device Callback Ctx}
    {handler : Handler Callback} (hhandler : dev.handler = some handler)
    (hnull : dev.callsNull = false) (ok : Bool) :
    ∃ dev', dev.handlerStep ok = some dev' := by
  cases hphase : handler.phase with
  | callback =>
      obtain ⟨callback, hcallback⟩ : ∃ callback, dev.callback = some callback := by
        apply Option.ne_none_iff_exists'.mp
        intro hnone
        simp [callsNull, hhandler, hphase, hnone] at hnull
      simp [handlerStep, hhandler, hphase, hcallback]
  | resubmit =>
      rcases submitTransfer_cases ok handler.index handler.session dev with
        ⟨_, _, heq⟩ | ⟨_, heq⟩ <;>
        simp [handlerStep, hhandler, hphase, heq]
  | requestExit => simp [handlerStep, hhandler, hphase]

omit [DecidableEq D] in
theorem Device.handlerStep_false {dev dev' : Device Callback Ctx}
    (hstep : dev.handlerStep false = some dev') :
    dev'.work = dev.work ∧ dev'.callsNull = false ∧
      (Slot.opened dev').handlerSteps < (Slot.opened dev).handlerSteps := by
  have hmove := handlerStep_move hstep
  cases hmove with
  | callbackCalled ok handler callback hhandler hphase hcallback =>
      refine ⟨rfl, by simp [callsNull], ?_⟩
      · simp [Slot.handlerSteps, hhandler, hphase, HandlerPhase.stepsLeft]
  | resubmitRefused ok handler hhandler hphase hrefused =>
      refine ⟨rfl, by simp [callsNull], ?_⟩
      · simp [Slot.handlerSteps, hhandler, hphase, HandlerPhase.stepsLeft]
  | exitRequested ok handler hhandler hphase =>
      refine ⟨rfl, by simp [callsNull], ?_⟩
      · simp [Slot.handlerSteps, hhandler, hphase, HandlerPhase.stepsLeft]

/-! ## Progress -/

/-- The steps on which a call may have to wait: its own, those of the transfer
thread of its device, and those of completion handlers. -/
def Event.servesCall (d : D) : Event D Callback Ctx → Bool
  | .api e => e = d
  | .thread e _ => e = d
  | .handler _ _ => true
  | _ => false

def Slot.returned : Slot Callback Ctx → Prop :=
  Slot.Holds fun dev => dev.call = .idle

def State.workLeft (d : D) (state : State D Callback Ctx) : ℕ :=
  (state.slots d).work + state.handlerWork d

theorem State.handler_progress {state : State D Callback Ctx} {d owner : D}
    {executor : Executor D} (hreach : state.Reachable)
    (hlock : state.eventLock = some (executor, owner))
    (hexecutor : executor.device = d) (hnull : state.callsNull d = false) :
    ∃ event next, event.servesCall d = true ∧ state.step event = some next ∧
      next.callsNull d = false ∧ next.workLeft d < state.workLeft d := by
  have hin := hreach.lockInvariant executor owner hlock
  cases hslot : state.slots owner with
  | closed result =>
      rw [hslot] at hin
      exact hin.elim
  | opened dev =>
      rw [hslot] at hin
      obtain ⟨handler, hhandler⟩ := Option.ne_none_iff_exists'.mp hin
      have hcalls : dev.callsNull = false := by
        rw [← Bool.not_eq_true] at hnull ⊢
        intro hcalls
        exact hnull (State.callsNull_iff.mpr
          ⟨executor, owner, dev, hlock, hexecutor, hslot, hcalls⟩)
      obtain ⟨dev', hstep⟩ := Device.handlerStep_some hhandler hcalls false
      obtain ⟨hwork, hnull', hlower⟩ := Device.handlerStep_false hstep
      let next : State D Callback Ctx := {
        slots := Function.update state.slots owner (.opened dev')
        eventLock := if dev'.handler.isNone then none else state.eventLock }
      have hnext : state.step (.handler owner false) = some next := by
        apply State.step_eq_some.mpr
        refine ⟨by simp [State.enabled, hlock], .opened dev', ?_, rfl⟩
        simp [Event.device, Event.action, localStep, hslot, hstep]
      refine ⟨.handler owner false, next, rfl, hnext, ?_, ?_⟩
      · rw [← Bool.not_eq_true] at hnull' ⊢
        intro hcalls
        obtain ⟨executor', owner', dev'', hlock', -, hslot', hcalls'⟩ :=
          State.callsNull_iff.mp hcalls
        simp only [next] at hlock' hslot'
        split_ifs at hlock'
        obtain ⟨-, rfl⟩ := Prod.mk.inj (Option.some.inj (hlock.symm.trans hlock'))
        simp only [Function.update_self, Slot.opened.injEq] at hslot'
        exact hnull' (hslot' ▸ hcalls')
      · have hslots : (next.slots d).work = (state.slots d).work := by
          by_cases hd : d = owner
          · subst hd
            simp [next, hslot, Slot.work, hwork]
          · simp [next, Function.update_of_ne hd]
        have hbefore : state.handlerWork d = (Slot.opened dev).handlerSteps := by
          simp [State.handlerWork, hlock, hexecutor, hslot]
        have hafter : next.handlerWork d ≤ (Slot.opened dev').handlerSteps := by
          simp only [State.handlerWork, next]
          split_ifs with hended
          · exact Nat.zero_le _
          · simp [hlock, hexecutor]
        unfold State.workLeft
        omega

/-- No completion handler runs inside the API call on the device or on its
transfer thread. -/
def State.NoHandlerOn (d : D) (state : State D Callback Ctx) : Prop :=
  ∀ executor owner, state.eventLock = some (executor, owner) →
    executor.device ≠ d

theorem State.NoHandlerOn.handlerWork {state : State D Callback Ctx} {d : D}
    (hfree : state.NoHandlerOn d) : state.handlerWork d = 0 := by
  unfold State.handlerWork
  split
  next executor owner hlock => exact if_neg (hfree executor owner hlock)
  next => rfl

theorem State.call_progress {state : State D Callback Ctx} {d : D}
    (hreach : state.Reachable) (hfree : state.NoHandlerOn d)
    (hbusy : ¬(state.slots d).returned) :
    ∃ event next, event.servesCall d = true ∧ state.step event = some next ∧
      next.callsNull d = false ∧ next.workLeft d < state.workLeft d := by
  cases hslot : state.slots d with
  | closed result =>
      rw [hslot] at hbusy
      exact absurd trivial hbusy
  | opened dev =>
      rw [hslot] at hbusy
      have hthread := hreach.holds Device.ThreadInvariant.isLocal hslot
      have hexit := hreach.holds Device.ExitInvariant.isLocal hslot
      obtain ⟨action, slot, haction, hlocal, hlower⟩ :=
        Device.localStep_work_lt hthread hexit hbusy
      have hisFree : ∀ executor : Executor D, executor.device = d →
          state.isFree executor = true := by
        intro executor hexecutor
        unfold State.isFree
        split
        next holder owner hlock =>
          simp only [ne_eq, decide_eq_true_eq]
          rintro rfl
          exact hfree holder owner hlock hexecutor
        next => rfl
      obtain ⟨event, hdevice, haction, hserves, henabled, hlock⟩ :
          ∃ event : Event D Callback Ctx, event.device = d ∧
            event.action = action ∧ event.servesCall d = true ∧
            state.enabled event = true ∧
            ∀ lock, state.nextLock event slot = some lock →
              state.eventLock = some lock := by
        rcases haction with rfl | rfl
        · refine ⟨.api d, rfl, rfl, by simp [Event.servesCall],
            hisFree (.apiCall d) rfl, ?_⟩
          intro lock hlock
          cases slot with
          | opened dev' => exact hlock
          | closed result => exact (Option.filter_eq_some_iff.mp hlock).1
        · refine ⟨.thread d false, rfl, rfl, by simp [Event.servesCall],
            hisFree (.transferThread d) rfl, ?_⟩
          intro lock hlock
          exact hlock
      subst hdevice haction
      let next : State D Callback Ctx := {
        slots := Function.update state.slots event.device slot
        eventLock := state.nextLock event slot }
      have hnext : state.step event = some next :=
        State.step_eq_some.mpr ⟨henabled, slot, hslot ▸ hlocal, rfl⟩
      have hstill : next.NoHandlerOn event.device :=
        fun executor owner hheld => hfree executor owner (hlock _ hheld)
      refine ⟨event, next, hserves, hnext, ?_, ?_⟩
      · rw [← Bool.not_eq_true]
        intro hcalls
        obtain ⟨executor, owner, dev', hheld, hexecutor, -⟩ :=
          State.callsNull_iff.mp hcalls
        exact hstill executor owner hheld hexecutor
      · unfold State.workLeft
        rw [hstill.handlerWork, hfree.handlerWork, hslot]
        simpa [next, Slot.work] using hlower

/-- In every reachable state, an API call in progress on a device can return:
at most 26 steps of the call, of the transfer thread of its device and of
completion handlers lead to a state in which it has returned, unless the
completion handler it may have to wait for is about to call a `NULL`
callback. -/
theorem apiCall_returns {before : List (Event D Callback Ctx)}
    {state : State D Callback Ctx} {d : D}
    (hrun : EventRun.run State.step State.initial before = some state)
    (hnull : state.callsNull d = false) :
    ∃ after final, (∀ event ∈ after, event.servesCall d = true) ∧
      after.length ≤ 26 ∧ EventRun.run State.step state after = some final ∧
      (final.slots d).returned := by
  have hreach : state.Reachable := ⟨before, hrun⟩
  obtain ⟨after, final, hserves, hlength, hafter, hreturned⟩ :=
    @EventRun.exists_run_of_progress _ _ State.step
      (fun state : State D Callback Ctx => state.Reachable ∧ state.callsNull d = false)
      (fun state => (state.slots d).returned)
      (fun event => event.servesCall d = true) (State.workLeft d)
      (by
        rintro state ⟨hreach, hnull⟩ hbusy
        by_cases hfree : state.NoHandlerOn d
        · obtain ⟨event, next, hserves, hstep, hkept, hlower⟩ :=
            State.call_progress hreach hfree hbusy
          exact ⟨event, next, hserves, hstep, ⟨hreach.step hstep, hkept⟩, hlower⟩
        · simp only [State.NoHandlerOn, not_forall, not_not] at hfree
          obtain ⟨executor, owner, hlock, hexecutor⟩ := hfree
          obtain ⟨event, next, hserves, hstep, hkept, hlower⟩ :=
            State.handler_progress hreach hlock hexecutor hnull
          exact ⟨event, next, hserves, hstep, ⟨hreach.step hstep, hkept⟩,
            hlower⟩)
      state ⟨hreach, hnull⟩
  refine ⟨after, final, hserves, ?_, hafter, hreturned⟩
  have hwork : (state.slots d).work ≤ 24 := by
    cases state.slots d with
    | opened dev => exact dev.work_le
    | closed result => exact Nat.zero_le _
  have hhandler : state.handlerWork d ≤ 2 := state.handlerWork_le d
  unfold State.workLeft at hlength
  omega

/-- The transfer thread of a receiving device is inside the completion handler
of another device, which transmits, when the application stops the first. -/
theorem apiCall_returns_twoDevices :
    let started : StartOutcomes := ⟨true, fun _ => true, true⟩
    let before : List (Event Bool ℕ ℕ) :=
      [.open false, .enter false (.startRx 0 0 started)] ++ apiSteps false 13 ++
      [.open true, .enter true (.startTx 1 1 started)] ++ apiSteps true 13 ++
      [.thread false false,
        .deliver (.transferThread false) true 2 .completed,
        .enter false (.stopRx ⟨true, true⟩)] ++ apiSteps false 2
    ∃ state after final,
      EventRun.run State.step State.initial before = some state ∧
      after.length ≤ 26 ∧ EventRun.run State.step state after = some final ∧
      (final.slots false).returned := by
  intro started before
  obtain ⟨state, hrun⟩ : ∃ state,
      EventRun.run State.step State.initial before = some state :=
    Option.isSome_iff_exists.mp (by decide)
  have hall : (EventRun.run State.step State.initial before).all
      (fun state => !state.callsNull false) = true := by decide
  have hnull : state.callsNull false = false := by
    rw [hrun] at hall
    simpa using hall
  obtain ⟨after, final, -, hlength, hafter, hreturned⟩ :=
    apiCall_returns hrun hnull
  exact ⟨state, after, final, hrun, hlength, hafter, hreturned⟩

end HackRF.Streaming
