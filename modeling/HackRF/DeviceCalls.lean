import HackRF.CloseJoin
import HackRF.StartFailure
import HackRF.StreamingCoverage

/-!
# One call after another

An application makes its calls on a device one at a time.  During a call, and
between two calls, the transfer thread and the completion handlers may take any
steps.  What each call returns and what it leaves behind is derived here from
the state in which it is made, whatever they do.
-/

namespace HackRF.Streaming

variable {Callback Ctx : Type*}

def Action.InBackground : Action Callback Ctx → Prop
  | .thread _ => True
  | .deliver _ _ => True
  | .handler _ => True
  | _ => False

def Action.DuringCall (action : Action Callback Ctx) : Prop :=
  action = .api ∨ action.InBackground

structure StartOutcomes.Succeeds (outs : StartOutcomes) : Prop where
  mode : outs.mode = true
  submit : ∀ index, outs.submit index = true
  create : outs.create = true

structure StopOutcomes.Succeeds (outs : StopOutcomes) : Prop where
  mode : outs.mode = true
  join : outs.join = true

/-- What a stop call on a started device returns if a request is refused. -/
def StopOutcomes.refusal (outs : StopOutcomes) : HackrfError :=
  if outs.mode then .thread else .libusb

namespace Device

variable {dev dev' dev'' : Device Callback Ctx}

/-- The device gets to `dev'` by actions which all meet `C`. -/
def Goes (C : Action Callback Ctx → Prop) (dev dev' : Device Callback Ctx) :
    Prop :=
  ∃ actions, (∀ action ∈ actions, C action) ∧
    EventRun.run localStep (.opened dev) actions = some (.opened dev')

def Drifts (dev dev' : Device Callback Ctx) : Prop :=
  dev.Goes Action.InBackground dev'

def Returns (call : ApiCall Callback Ctx) (result : HackrfError)
    (dev dev' : Device Callback Ctx) : Prop :=
  dev.call = .idle ∧
    (dev.goto (call.entry dev)).Goes Action.DuringCall dev' ∧
      dev'.call = .idle ∧ dev'.returned = some result

/-- The application makes a close call, which is about to free the record and
to return `result`. -/
def Closes (outs1 outs2 : StopOutcomes) (result : HackrfError)
    (dev dev' : Device Callback Ctx) : Prop :=
  dev.call = .idle ∧
    (dev.goto ((ApiCall.close outs1 outs2).entry dev)).Goes Action.DuringCall
        dev' ∧
      ∃ wasStarted result1 result2,
        dev'.call = .close wasStarted outs1 outs2
          (.freeDevice result1 result2) ∧
        result = closeResult result1 result2

theorem Goes.refl (C : Action Callback Ctx → Prop) (dev : Device Callback Ctx) :
    dev.Goes C dev :=
  ⟨[], by simp, rfl⟩

theorem Goes.trans {C : Action Callback Ctx → Prop} (hfirst : dev.Goes C dev')
    (hsecond : dev'.Goes C dev'') : dev.Goes C dev'' := by
  obtain ⟨before, hbefore, hrun⟩ := hfirst
  obtain ⟨after, hafter, hrest⟩ := hsecond
  refine ⟨before ++ after, List.forall_mem_append.mpr ⟨hbefore, hafter⟩, ?_⟩
  rw [EventRun.run_append, hrun]
  exact hrest

theorem ApiReaches.goes (hreaches : ApiReaches dev dev') :
    dev.Goes Action.DuringCall dev' := by
  obtain ⟨n, hn⟩ := hreaches
  exact ⟨_, fun action haction => .inl (List.eq_of_mem_replicate haction), hn⟩

theorem Goes.keep {C : Action Callback Ctx → Prop}
    (Inv : Device Callback Ctx → Prop) (hopen : ¬ C .open)
    (hkeep : ∀ {before after : Device Callback Ctx} {action},
      C action → before.Move action after → Inv before → Inv after)
    (hgoes : dev.Goes C dev') (hinv : Inv dev) : Inv dev' := by
  obtain ⟨actions, hC, hrun⟩ := hgoes
  have halong : EventRun.Along localStep (fun _ action _ => C action)
      (.opened dev) actions :=
    EventRun.along_of_forall (fun action haction _ _ => hC action haction) _
  have hslot : Slot.Holds Inv (.opened dev) := hinv
  refine EventRun.invariant_of_along (Slot.Holds Inv) ?_ hslot halong hrun
  intro slot action next hstep hmeets hslot
  cases slot with
  | closed result =>
      cases action <;> simp [localStep] at hstep
      exact absurd hmeets hopen
  | opened before =>
      cases next with
      | closed result => trivial
      | opened after => exact hkeep hmeets (move_of_localStep hstep) hslot

theorem Drifts.keep (Inv : Device Callback Ctx → Prop)
    (hkeep : ∀ {before after : Device Callback Ctx} {action},
      action.InBackground → before.Move action after → Inv before → Inv after)
    (hdrifts : dev.Drifts dev') (hinv : Inv dev) : Inv dev' :=
  Goes.keep Inv id hkeep hdrifts hinv

theorem goes_duringCall_keep (Inv : Device Callback Ctx → Prop)
    (hkeep : ∀ {before after : Device Callback Ctx} {action},
      action.DuringCall → before.Move action after → Inv before → Inv after)
    (hgoes : dev.Goes Action.DuringCall dev') (hinv : Inv dev) : Inv dev' :=
  Goes.keep Inv (by simp [Action.DuringCall, Action.InBackground]) hkeep hgoes
    hinv

/-! ## A device on which nothing runs -/

/-- There is no transfer thread and no completion handler, and no transfer is
in flight. -/
structure Quiet (dev : Device Callback Ctx) : Prop where
  thread : dev.transferThread = .absent
  notStarted : dev.transferThreadStarted = false
  handler : dev.handler = none
  inFlight : ∀ index, (dev.transfers index).inFlight = false

/-- An open device which does nothing and on which no call is in progress. -/
structure Idle (dev : Device Callback Ctx) : Prop where
  usbOpen : dev.usbOpen = true
  call : dev.call = .idle
  quiet : dev.Quiet
  mode : dev.mode ≠ some .receive

/-- No transfer thread runs, no transfer is submitted and the hardware does not
receive.  libusb drops the transfers of a handle which it closes. -/
structure Silent (dev : Device Callback Ctx) : Prop where
  thread : dev.transferThread = .absent ∨ dev.transferThread = .exited
  transfers : dev.usbOpen = true →
    ∀ index, (dev.transfers index).inFlight = false
  mode : dev.mode ≠ some .receive

theorem Quiet.silent (hquiet : dev.Quiet) (hmode : dev.mode ≠ some .receive) :
    dev.Silent :=
  ⟨.inl hquiet.thread, fun _ => hquiet.inFlight, hmode⟩

theorem Quiet.threadInvariant (hquiet : dev.Quiet) (hidle : dev.call = .idle) :
    dev.ThreadInvariant := by
  rw [ThreadInvariant, hidle]
  simp [Call.FlagFits, hasThread, hquiet.thread, hquiet.notStarted]

theorem idle_fresh : (fresh : Device Callback Ctx).Idle :=
  ⟨rfl, rfl, ⟨rfl, rfl, rfl, fun _ => rfl⟩, by simp [fresh]⟩

theorem Quiet.not_background (hquiet : dev.Quiet) {action : Action Callback Ctx}
    (hback : action.InBackground) : ¬ dev.Move action dev' := by
  intro hmove
  obtain ⟨hthread, -, hhandler, hfly⟩ := hquiet
  cases hmove <;> simp_all [Action.InBackground]

theorem Drifts.eq_of_quiet (hdrifts : dev.Drifts dev') (hquiet : dev.Quiet) :
    dev' = dev := by
  refine hdrifts.keep (· = dev) ?_ rfl
  rintro before after action hback hmove rfl
  exact absurd hmove (hquiet.not_background hback)

theorem Quiet.api_of_duringCall (hquiet : dev.Quiet)
    {action : Action Callback Ctx} (hduring : action.DuringCall)
    (hmove : dev.Move action dev') : action = .api :=
  hduring.resolve_right fun hback => hquiet.not_background hback hmove

theorem Quiet.finish (hquiet : dev.Quiet) (code : HackrfError) :
    (dev.finish code).Quiet :=
  ⟨hquiet.thread, hquiet.notStarted, hquiet.handler, hquiet.inFlight⟩

theorem Quiet.goto (hquiet : dev.Quiet) (call : Call Callback Ctx) :
    (dev.goto call).Quiet :=
  ⟨hquiet.thread, hquiet.notStarted, hquiet.handler, hquiet.inFlight⟩

theorem not_move_api_of_idle (hidle : dev.call = .idle) :
    ¬ dev.Move .api dev' := by
  intro hmove
  cases hmove <;> simp_all

theorem Quiet.returns_of_oneStatement {call : ApiCall Callback Ctx}
    {code returned : HackrfError}
    (hstep : ∀ {before after : Device Callback Ctx},
      before.call = call.entry dev → before.Move .api after →
        after = before.finish code)
    (hquiet : dev.Quiet) (hreturns : dev.Returns call returned dev') :
    returned = code ∧ dev'.Quiet ∧ dev'.mode = dev.mode := by
  obtain ⟨-, hgoes, hidle, hreturned⟩ := hreturns
  have hinv := goes_duringCall_keep (fun after =>
      after.Quiet ∧ after.mode = dev.mode ∧
        (after.call = call.entry dev ∨
          after.call = .idle ∧ after.returned = some code))
    (by
      rintro before after action hduring hmove ⟨hbefore, hmode, hcall⟩
      obtain rfl := hbefore.api_of_duringCall hduring hmove
      rcases hcall with hcall | ⟨hover, -⟩
      · obtain rfl := hstep hcall hmove
        exact ⟨hbefore.finish code, hmode, .inr ⟨rfl, rfl⟩⟩
      · exact absurd hmove (not_move_api_of_idle hover))
    hgoes ⟨hquiet.goto _, rfl, .inl rfl⟩
  obtain ⟨hafter, hmode, hcall | ⟨-, hcode⟩⟩ := hinv
  · cases call <;> simp [hidle, ApiCall.entry] at hcall
  · exact ⟨Option.some.inj (hreturned.symm.trans hcode), hafter, hmode⟩

theorem Quiet.returns_control (hquiet : dev.Quiet)
    {result returned : HackrfError}
    (hreturns : dev.Returns (.control result) returned dev') :
    returned = result ∧ dev'.Quiet ∧ dev'.mode = dev.mode := by
  refine hquiet.returns_of_oneStatement ?_ hreturns
  intro before after hcall hmove
  rw [ApiCall.entry] at hcall
  cases hmove <;> simp_all

theorem Quiet.returns_startRx_refused (hquiet : dev.Quiet) {callback : Callback}
    {rxCtx : Ctx} {outs : StartOutcomes} {returned : HackrfError}
    (hmode : outs.mode = false)
    (hreturns : dev.Returns (.startRx callback rxCtx outs) returned dev') :
    returned = .libusb ∧ dev'.Quiet ∧ dev'.mode = dev.mode := by
  refine hquiet.returns_of_oneStatement ?_ hreturns
  intro before after hcall hmove
  rw [ApiCall.entry] at hcall
  cases hmove <;> simp_all

/-! ## A start call which goes through -/

structure BackgroundFrame (dev dev' : Device Callback Ctx) : Prop where
  usbOpen : dev'.usbOpen = dev.usbOpen
  call : dev'.call = dev.call
  returned : dev'.returned = dev.returned
  started : dev'.transferThreadStarted = dev.transferThreadStarted
  hasThread : dev'.hasThread = dev.hasThread
  mode : dev'.mode = dev.mode

theorem Move.frame_of_background {action : Action Callback Ctx}
    (hmove : dev.Move action dev') (hback : action.InBackground) :
    dev.BackgroundFrame dev' := by
  cases hmove <;> first
    | exact absurd hback id
    | constructor <;>
        simp_all [hasThread, takeOut, putInFlight, setTransfer, requestExit]

/-- A transfer is handled or resubmitted only if it was in flight or being
handled before. -/
theorem Move.covered_of_background {action : Action Callback Ctx}
    (hmove : dev.Move action dev') (hback : action.InBackground)
    {index : TransferIndex} (hcovered : dev'.Covered index) :
    dev.Covered index := by
  cases hmove with
  | threadWaits => exact hcovered
  | threadExits => exact hcovered
  | eventsHandled => exact hcovered
  | eventsFailed => exact hcovered
  | delivered finished status hfly hfree =>
      rcases hcovered with hstill | ⟨handler, hhandler, rfl⟩
      · by_cases hindex : index = finished
        · exact .inl (hindex ▸ hfly)
        · exact .inl (by simpa [hindex] using hstill)
      · obtain rfl := Option.some.inj hhandler
        exact .inl hfly
  | callbackCalled ok handler callback hhandler =>
      apply hcovered.imp_right
      rintro ⟨next, hnext, rfl⟩
      obtain rfl := Option.some.inj hnext
      exact ⟨handler, hhandler, rfl⟩
  | resubmitted handler hhandler =>
      rcases hcovered with hfly | ⟨next, hnext, -⟩
      · by_cases hindex : index = handler.index
        · exact .inr ⟨handler, hhandler, hindex.symm⟩
        · exact .inl (by simpa [hindex] using hfly)
      · simp at hnext
  | resubmitRefused ok handler hhandler =>
      apply hcovered.imp_right
      rintro ⟨next, hnext, rfl⟩
      obtain rfl := Option.some.inj hnext
      exact ⟨handler, hhandler, rfl⟩
  | exitRequested ok handler hhandler =>
      exact hcovered.imp_right fun ⟨next, hnext, _⟩ => by simp at hnext
  | _ => exact absurd hback id

/-- A start call is in progress and has all it needs: there is no transfer
thread, and the transfers which it has not submitted yet are idle. -/
structure Starting (outs : StartOutcomes) (dev : Device Callback Ctx) :
    Prop where
  call : ∃ args pc, dev.call = .start args outs pc
  notStarted : dev.transferThreadStarted = false
  uncovered : ∀ index, dev.call.hasSubmitted index = false →
    ¬ dev.Covered index

theorem Starting.advance {outs : StartOutcomes} (hstarting : dev.Starting outs)
    {args : StartCall Callback Ctx} {pc : StartPc}
    (hcall : dev'.call = .start args outs pc)
    (hstarted : dev'.transferThreadStarted = dev.transferThreadStarted)
    (hcovered : ∀ index, dev'.Covered index → dev.Covered index)
    (hsubmitted : ∀ index, dev'.call.hasSubmitted index = false →
      dev.call.hasSubmitted index = false) :
    dev'.Starting outs where
  call := ⟨args, pc, hcall⟩
  notStarted := hstarted.trans hstarting.notStarted
  uncovered := fun index hindex hcover =>
    hstarting.uncovered index (hsubmitted index hindex) (hcovered index hcover)

theorem Starting.submitted {args : StartCall Callback Ctx}
    {outs : StartOutcomes} {index : TransferIndex} {pc : StartPc}
    (hstarting : dev.Starting outs)
    (hcall : dev.call = .start args outs (.submit index))
    (hpc : (∃ next, index.next = some next ∧ pc = .submit next) ∨
      (index.next = none ∧ pc = .setStreaming)) :
    (((dev.setEndpoint index args.direction.endpoint).putInFlight index
      (some (dev.currentSession args))).goto
        (.start args outs pc)).Starting outs where
  call := ⟨args, pc, rfl⟩
  notStarted := hstarting.notStarted
  uncovered := by
    intro k hk hcovered
    have hlater : ¬ k < index ∧ k ≠ index := by
      rcases hpc with ⟨next, hnext, rfl⟩ | ⟨-, rfl⟩
      · have hnot : ¬ k < next := by simpa [goto, Call.hasSubmitted] using hk
        rwa [TransferIndex.lt_of_next hnext k, not_or] at hnot
      · simp [goto, Call.hasSubmitted] at hk
    apply hstarting.uncovered k
    · simpa [hcall, Call.hasSubmitted] using hlater.1
    · exact hcovered.imp_left fun hfly => by simpa [goto, hlater.2] using hfly

theorem Starting.outs_eq {outs outs' : StartOutcomes}
    (hstarting : dev.Starting outs) {args : StartCall Callback Ctx}
    {pc : StartPc} (hcall : dev.call = .start args outs' pc) : outs' = outs := by
  obtain ⟨args', pc', hpc⟩ := hstarting.call
  rw [hpc] at hcall
  cases hcall
  rfl

theorem Starting.keep {outs : StartOutcomes} (hall : outs.Succeeds)
    (hstarting : dev.Starting outs) {action : Action Callback Ctx}
    (hduring : action.DuringCall) (hmove : dev.Move action dev') :
    dev'.Starting outs ∨
      dev'.call = .idle ∧ dev'.returned = some .success := by
  rcases hduring with rfl | hback
  · cases hmove with
    | modeRefused args outs' hcall hrefused =>
        obtain rfl := hstarting.outs_eq hcall
        simp [hall.mode] at hrefused
    | createRefused args outs' hcall hrefused =>
        obtain rfl := hstarting.outs_eq hcall
        simp [hall.create] at hrefused
    | busy args outs' hcall hstarted =>
        simp [hstarting.notStarted] at hstarted
    | submitRefused args outs' index hcall hrefused =>
        obtain rfl := hstarting.outs_eq hcall
        have huncovered := hstarting.uncovered index
          (by simp [hcall, Call.hasSubmitted])
        rcases hrefused with hfly | hrefused
        · exact absurd (.inl hfly) huncovered
        · simp [hall.submit] at hrefused
    | submitted args outs' index pc hcall _ _ hpc =>
        obtain rfl := hstarting.outs_eq hcall
        exact .inl (hstarting.submitted hcall hpc)
    | ctxStored args outs' hcall =>
        obtain rfl := hstarting.outs_eq hcall
        left
        cases hdirection : args.direction <;>
          exact hstarting.advance rfl rfl (fun _ => id)
            (by simp [hcall, Call.hasSubmitted])
    | modeSet args outs' hcall | begun args outs' hcall
    | streamingCleared args outs' hcall | doExitCleared args outs' hcall
    | streamingSet args outs' hcall | callbackInstalled args outs' hcall
    | created args outs' hcall =>
        obtain rfl := hstarting.outs_eq hcall
        exact .inl (hstarting.advance rfl rfl (fun _ => id)
          (by simp [hcall, goto, Call.hasSubmitted]))
    | startedSet => exact .inr ⟨rfl, rfl⟩
    | _ =>
        obtain ⟨args, pc, hpc⟩ := hstarting.call
        simp_all
  · have hframe := hmove.frame_of_background hback
    refine .inl ⟨?_, ?_, fun index hindex hcovered => ?_⟩
    · rw [hframe.call]
      exact hstarting.call
    · rw [hframe.started]
      exact hstarting.notStarted
    · rw [hframe.call] at hindex
      exact hstarting.uncovered index hindex
        (hmove.covered_of_background hback hcovered)

/-- On a quiet device a start call whose requests are all granted succeeds. -/
theorem Quiet.returns_startRx (hquiet : dev.Quiet) {callback : Callback}
    {rxCtx : Ctx} {outs : StartOutcomes} {returned : HackrfError}
    (hall : outs.Succeeds)
    (hreturns : dev.Returns (.startRx callback rxCtx outs) returned dev') :
    returned = .success := by
  obtain ⟨-, hgoes, hidle, hreturned⟩ := hreturns
  have hstarting : (dev.goto ((ApiCall.startRx callback rxCtx outs).entry
      dev)).Starting outs := by
    have hentered := hquiet.goto ((ApiCall.startRx callback rxCtx outs).entry dev)
    refine ⟨⟨_, _, rfl⟩, hquiet.notStarted, ?_⟩
    rintro index - (hfly | ⟨handler, hhandler, -⟩)
    · simp [hentered.inFlight index] at hfly
    · simp [hentered.handler] at hhandler
  have hinv := goes_duringCall_keep (fun after => after.Starting outs ∨
      after.call = .idle ∧ after.returned = some .success)
    (by
      rintro before after action hduring hmove (hbefore | ⟨hover, hcode⟩)
      · exact hbefore.keep hall hduring hmove
      · rcases hduring with rfl | hback
        · exact absurd hmove (not_move_api_of_idle hover)
        · have hframe := hmove.frame_of_background hback
          exact .inr ⟨hframe.call.trans hover, hframe.returned.trans hcode⟩)
    hgoes (.inl hstarting)
  rcases hinv with hafter | ⟨-, hcode⟩
  · obtain ⟨args, pc, hcall⟩ := hafter.call
    simp [hidle] at hcall
  · exact Option.some.inj (hreturned.symm.trans hcode)

/-! ## Stop calls -/

/-- There is no transfer thread, and the hardware does not receive. -/
def Down (dev : Device Callback Ctx) : Prop :=
  dev.transferThread = .absent ∧ dev.transferThreadStarted = false ∧
    dev.mode ≠ some .receive

/-- What a stop call has achieved at a statement, if its requests are
granted. -/
def Stopped (dev : Device Callback Ctx) : StopPc → Prop
  | .modeRequest => True
  | .cancel _ => dev.Down
  | _ => dev.mode = some .off

def StoppedNext (dev : Device Callback Ctx) : StopNext → Prop
  | .at pc => dev.Stopped pc
  | .done _ => dev.Down

theorem StopMove.stopped {outs : StopOutcomes} {pc : StopPc} {next : StopNext}
    (hmove : StopMove outs dev pc next dev') (hall : outs.Succeeds)
    (hfits : pc.FlagFits dev.transferThreadStarted dev.hasThread)
    (hstopped : dev.Stopped pc) : dev'.StoppedNext next := by
  cases hmove with
  | modeRefused hmode => simp [hall.mode] at hmode
  | joinFailed _ hjoin => simp [hall.join] at hjoin
  | modeSet => rfl
  | exitRequested => exact hstopped
  | joined => exact hstopped
  | notStarted hstarted =>
      have habsent : dev.hasThread = false := by
        simpa [StopPc.FlagFits, hstarted] using hfits.symm
      have hmode : dev.mode = some .off := hstopped
      exact ⟨by simpa [hasThread] using habsent, hstarted, by simp [hmode]⟩
  | startedCleared =>
      have habsent : dev.hasThread = false := hfits.2
      have hmode : dev.mode = some .off := hstopped
      exact ⟨by simpa [hasThread] using habsent, rfl, by simp [hmode]⟩
  | cancelled => exact hstopped
  | lastCancelled => exact hstopped

theorem StopMove.down {outs : StopOutcomes} {pc : StopPc} {next : StopNext}
    (hmove : StopMove outs dev pc next dev') (hdown : dev.Down) : dev'.Down := by
  obtain ⟨hthread, hstarted, hmode⟩ := hdown
  cases hmove with
  | modeSet => exact ⟨hthread, hstarted, by simp⟩
  | joined _ _ _ => exact ⟨rfl, hstarted, hmode⟩
  | startedCleared => exact ⟨hthread, rfl, hmode⟩
  | _ => exact ⟨hthread, hstarted, hmode⟩

/-- The stop and close calls which have brought the device down, or will. -/
def Stopping (dev : Device Callback Ctx) : Prop :=
  match dev.call with
  | .idle => dev.Down
  | .stop outs pc => dev.Down ∨ outs.Succeeds ∧ dev.Stopped pc
  | .close _ outs1 outs2 (.stopRx pc) =>
      dev.Down ∨ outs1.Succeeds ∧ dev.Stopped pc ∨ outs2.Succeeds
  | .close _ _ outs2 (.stopTx _ pc) =>
      dev.Down ∨ outs2.Succeeds ∧ dev.Stopped pc
  | .close _ _ _ (.usbClose _ _) => dev.Down
  | .close _ _ _ _ => dev.Down ∧ dev.usbOpen = false
  | _ => False

theorem BackgroundFrame.down (hframe : dev.BackgroundFrame dev')
    (hdown : dev.Down) : dev'.Down := by
  obtain ⟨hthread, hstarted, hmode⟩ := hdown
  have habsent : dev'.hasThread = false := by
    rw [hframe.hasThread, Device.hasThread, hthread]
    rfl
  exact ⟨by simpa [Device.hasThread] using habsent,
    hframe.started.trans hstarted, hframe.mode ▸ hmode⟩

theorem BackgroundFrame.stopped (hframe : dev.BackgroundFrame dev')
    {pc : StopPc} (hstopped : dev.Stopped pc) : dev'.Stopped pc := by
  cases pc with
  | modeRequest => trivial
  | cancel index => exact hframe.down hstopped
  | _ => exact hframe.mode.trans hstopped

theorem BackgroundFrame.stopping (hframe : dev.BackgroundFrame dev')
    (hstopping : dev.Stopping) : dev'.Stopping := by
  unfold Stopping at hstopping ⊢
  rw [hframe.call]
  split at hstopping
  · exact hframe.down hstopping
  · exact hstopping.imp hframe.down (And.imp_right hframe.stopped)
  · exact hstopping.imp hframe.down
      (Or.imp_left (And.imp_right hframe.stopped))
  · exact hstopping.imp hframe.down (And.imp_right hframe.stopped)
  · exact hframe.down hstopping
  · exact ⟨hframe.down hstopping.1, hframe.usbOpen.trans hstopping.2⟩
  · exact hstopping

theorem Stopping.keep (hstopping : dev.Stopping) (hfits : dev.ThreadInvariant)
    {action : Action Callback Ctx} (hduring : action.DuringCall)
    (hmove : dev.Move action dev') : dev'.Stopping := by
  rcases hduring with rfl | hback
  · unfold Stopping at hstopping
    unfold ThreadInvariant at hfits
    cases hmove with
    | stopAt outs pc next dev₁ hcall hstep =>
        rw [hcall] at hstopping hfits
        have hstop := stopMove_of_stopStep hstep
        exact hstopping.imp hstop.down fun ⟨hall, hstopped⟩ =>
          ⟨hall, hstop.stopped hall hfits hstopped⟩
    | stopDone outs pc code dev₁ hcall hstep =>
        rw [hcall] at hstopping hfits
        have hstop := stopMove_of_stopStep hstep
        exact hstopping.elim hstop.down fun ⟨hall, hstopped⟩ =>
          hstop.stopped hall hfits hstopped
    | closeStopRx wasStarted outs1 outs2 pc next dev₁ hcall hstep =>
        rw [hcall] at hstopping hfits
        have hstop := stopMove_of_stopStep hstep
        cases next with
        | «at» next =>
            exact hstopping.imp hstop.down
              (Or.imp_left fun ⟨hall, hstopped⟩ =>
                ⟨hall, hstop.stopped hall hfits hstopped⟩)
        | done result1 =>
            rcases hstopping with hdown | ⟨hall, hstopped⟩ | hall
            · exact .inl (hstop.down hdown)
            · exact .inl (hstop.stopped hall hfits hstopped)
            · exact .inr ⟨hall, trivial⟩
    | closeStopTx wasStarted outs1 outs2 result1 pc next dev₁ hcall hstep =>
        rw [hcall] at hstopping hfits
        have hstop := stopMove_of_stopStep hstep
        cases next with
        | «at» next =>
            exact hstopping.imp hstop.down fun ⟨hall, hstopped⟩ =>
              ⟨hall, hstop.stopped hall hfits hstopped⟩
        | done result2 =>
            exact hstopping.elim hstop.down fun ⟨hall, hstopped⟩ =>
              hstop.stopped hall hfits hstopped
    | usbClosed wasStarted outs1 outs2 result1 result2 hcall =>
        rw [hcall] at hstopping
        exact ⟨hstopping, rfl⟩
    | transferFreed wasStarted outs1 outs2 result1 result2 index pc hcall hpc =>
        rw [hcall] at hstopping
        rcases hpc with ⟨next, rfl⟩ | rfl <;> exact hstopping
    | _ => simp_all
  · exact (hmove.frame_of_background hback).stopping hstopping

theorem Goes.threadInvariant {C : Action Callback Ctx → Prop}
    (hopen : ¬ C .open) (hgoes : dev.Goes C dev')
    (hfits : dev.ThreadInvariant) : dev'.ThreadInvariant :=
  hgoes.keep ThreadInvariant hopen (fun _ hmove hbefore => hbefore.keep hmove)
    hfits

theorem Returns.threadInvariant {call : ApiCall Callback Ctx}
    {result : HackrfError} (hreturns : dev.Returns call result dev')
    (hfits : dev.ThreadInvariant) : dev'.ThreadInvariant :=
  Goes.threadInvariant (by simp [Action.DuringCall, Action.InBackground])
    hreturns.2.1 (hfits.keep (.entered call hreturns.1))

theorem Closes.threadInvariant {outs1 outs2 : StopOutcomes}
    {result : HackrfError} (hcloses : dev.Closes outs1 outs2 result dev')
    (hfits : dev.ThreadInvariant) : dev'.ThreadInvariant :=
  Goes.threadInvariant (by simp [Action.DuringCall, Action.InBackground])
    hcloses.2.1 (hfits.keep (.entered _ hcloses.1))

theorem Drifts.threadInvariant (hdrifts : dev.Drifts dev')
    (hfits : dev.ThreadInvariant) : dev'.ThreadInvariant :=
  Goes.threadInvariant id hdrifts hfits

theorem Drifts.frame (hdrifts : dev.Drifts dev') : dev.BackgroundFrame dev' := by
  refine hdrifts.keep dev.BackgroundFrame ?_ ⟨rfl, rfl, rfl, rfl, rfl, rfl⟩
  intro before after action hback hmove hbefore
  have hstep := hmove.frame_of_background hback
  exact ⟨hstep.usbOpen.trans hbefore.usbOpen, hstep.call.trans hbefore.call,
    hstep.returned.trans hbefore.returned,
    hstep.started.trans hbefore.started,
    hstep.hasThread.trans hbefore.hasThread, hstep.mode.trans hbefore.mode⟩

theorem Goes.stopping (hgoes : dev.Goes Action.DuringCall dev')
    (hfits : dev.ThreadInvariant) (hstopping : dev.Stopping) :
    dev'.Stopping := by
  have hboth := goes_duringCall_keep
    (fun after => after.ThreadInvariant ∧ after.Stopping)
    (fun hduring hmove hbefore => ⟨hbefore.1.keep hmove,
      hbefore.2.keep hbefore.1 hduring hmove⟩) hgoes ⟨hfits, hstopping⟩
  exact hboth.2

/-- After a stop call the device is down if it was down before, or if the
requests of the call are granted. -/
theorem Returns.down_of_stopRx {outs : StopOutcomes} {result : HackrfError}
    (hreturns : dev.Returns (.stopRx outs) result dev')
    (hfits : dev.ThreadInvariant) (hdown : dev.Down ∨ outs.Succeeds) :
    dev'.Down := by
  obtain ⟨hidle, hgoes, hover, -⟩ := hreturns
  have hafter := hgoes.stopping (hfits.keep (.entered _ hidle))
    (hdown.imp_right fun hall => ⟨hall, trivial⟩)
  rwa [Stopping, hover] at hafter

theorem Closes.down {outs1 outs2 : StopOutcomes} {result : HackrfError}
    (hcloses : dev.Closes outs1 outs2 result dev')
    (hfits : dev.ThreadInvariant)
    (hdown : dev.Down ∨ outs1.Succeeds ∨ outs2.Succeeds) :
    dev'.Down ∧ dev'.usbOpen = false := by
  obtain ⟨hidle, hgoes, _, _, _, hcall, -⟩ := hcloses
  have hafter := hgoes.stopping (hfits.keep (.entered _ hidle))
    (hdown.imp_right (Or.imp_left fun hall => ⟨hall, trivial⟩))
  rwa [Stopping, hcall] at hafter

/-! ## Calls without interference -/

theorem returns_control (hidle : dev.call = .idle) (result : HackrfError) :
    dev.Returns (.control result) result
      ((dev.goto (.control result)).finish result) := by
  refine ⟨hidle, ?_, rfl, rfl⟩
  exact ⟨[.api], by simp [Action.DuringCall], rfl⟩

theorem returns_startRx (hidle : dev.call = .idle) (callback : Callback)
    (rxCtx : Ctx) (outs : StartOutcomes) :
    dev.Returns (.startRx callback rxCtx outs)
      (dev.hackrfStartRx callback rxCtx outs).1
      ((dev.hackrfStartRx callback rxCtx outs).2.finish
        (dev.hackrfStartRx callback rxCtx outs).1) :=
  ⟨hidle, (apiReaches_hackrfStart ⟨.rx, callback, rxCtx⟩ outs dev).goes, rfl,
    rfl⟩

theorem prepareLoop_mode (args : StartCall Callback Ctx)
    (submit : TransferIndex → Bool) (indices : List TransferIndex)
    (dev : Device Callback Ctx) :
    (dev.prepareLoop args submit indices).2.mode = dev.mode ∧
      (dev.prepareLoop args submit indices).2.doExit = dev.doExit := by
  induction indices generalizing dev with
  | nil => exact ⟨rfl, rfl⟩
  | cons index rest ih =>
      rw [prepareLoop]
      rcases submitTransfer_cases (submit index) index
          (some (dev.currentSession args))
          (dev.setEndpoint index args.direction.endpoint) with
        ⟨-, -, heq⟩ | ⟨-, heq⟩
      · rw [heq]
        exact ih ((dev.setEndpoint index args.direction.endpoint).putInFlight
          index (some (dev.currentSession args)))
      · rw [heq]
        exact ⟨rfl, rfl⟩

theorem createTransferThread_mode (args : StartCall Callback Ctx)
    (outs : StartOutcomes) (dev : Device Callback Ctx) :
    (dev.createTransferThread args outs).2.mode = dev.mode ∧
      ((dev.createTransferThread args outs).1 = .success →
        (dev.createTransferThread args outs).2.hackrfIsStreaming = .true ∧
          (dev.createTransferThread args outs).2.transferThread = .atTest) := by
  have hloop := prepareLoop_mode args outs.submit (List.finRange transferCount)
    { dev.beginSession with streaming := false, doExit := false }
  cases hstarted : dev.transferThreadStarted with
  | true => simp [createTransferThread, hstarted]
  | false =>
      simp only [createTransferThread, prepareTransfers, hstarted, ↓reduceIte]
      rcases hprepare : prepareLoop args outs.submit
          (List.finRange transferCount)
          { dev.beginSession with streaming := false, doExit := false } with
        ⟨code, prepared⟩
      rw [hprepare] at hloop
      obtain ⟨hmode, hexit⟩ := hloop
      cases code with
      | success =>
          cases outs.create with
          | true => exact ⟨hmode, fun _ => ⟨if_pos ⟨rfl, rfl, hexit⟩, rfl⟩⟩
          | false => exact ⟨hmode, by simp⟩
      | _ => exact ⟨hmode, by simp⟩

/-- The hardware receives after a start call whose mode request is granted,
whatever becomes of the rest of the call. -/
theorem hackrfStartRx_mode {outs : StartOutcomes} (hmode : outs.mode = true)
    (callback : Callback) (rxCtx : Ctx) (dev : Device Callback Ctx) :
    (dev.hackrfStartRx callback rxCtx outs).2.mode = some .receive ∧
      ((dev.hackrfStartRx callback rxCtx outs).1 = .success →
        (dev.hackrfStartRx callback rxCtx outs).2.hackrfIsStreaming = .true ∧
          (dev.hackrfStartRx callback rxCtx outs).2.transferThread =
            .atTest) := by
  rw [hackrfStartRx, hackrfStart_of_mode hmode]
  exact createTransferThread_mode _ _ _

theorem Quiet.hackrfStartRx_success_iff (hquiet : dev.Quiet)
    (callback : Callback) (rxCtx : Ctx) (outs : StartOutcomes) :
    (dev.hackrfStartRx callback rxCtx outs).1 = .success ↔ outs.Succeeds := by
  rw [hackrfStartRx, hackrfStart_success_iff]
  constructor
  · intro hgoes
    exact ⟨hgoes.mode, fun index => (hgoes.submit index).2, hgoes.create⟩
  · intro hall
    exact ⟨hall.mode, hquiet.notStarted,
      fun index => ⟨hquiet.inFlight index, hall.submit index⟩, hall.create⟩

theorem ApiReaches.step (hstep : dev.apiStep = some (.opened dev'))
    (hrest : ApiReaches dev' dev'') : ApiReaches dev dev'' := by
  obtain ⟨n, hn⟩ := hrest
  exact ⟨n + 1, by simpa [List.replicate_succ, localStep, hstep] using hn⟩

/-- A stop call, or one inside a close call, of which a request is refused,
leaves the transfer thread running.  `wrap` is the call at a statement of it and
`back` where it goes with its result. -/
theorem apiReaches_refusedStop {outs : StopOutcomes}
    (wrap : StopPc → Call Callback Ctx)
    (back : HackrfError → Device Callback Ctx → Device Callback Ctx)
    (hat : ∀ {before after : Device Callback Ctx} {pc next},
      before.call = wrap pc →
        before.stopStep outs pc = some (.at next, after) →
          before.apiStep = some (.opened (after.goto (wrap next))))
    (hdone : ∀ {before after : Device Callback Ctx} {pc code},
      before.call = wrap pc →
        before.stopStep outs pc = some (.done code, after) →
          before.apiStep = some (.opened (back code after)))
    (hcall : dev.call = wrap .modeRequest)
    (hstarted : dev.transferThreadStarted = true) (hrefused : ¬ outs.Succeeds) :
    ∃ after, ApiReaches dev (back outs.refusal after) ∧
      after.transferThreadStarted = true ∧
        after.transferThread = dev.transferThread := by
  cases hmode : outs.mode with
  | false =>
      have hstop : dev.stopStep outs .modeRequest =
          some (.done .libusb, dev) := by
        simp [stopStep, setTransceiverMode, hmode]
      rw [StopOutcomes.refusal, hmode]
      exact ⟨dev, .step (hdone hcall hstop) (.refl _), hstarted, rfl⟩
  | true =>
      have hjoin : outs.join = false := by
        by_contra hjoin
        exact hrefused ⟨hmode, by simpa using hjoin⟩
      have hoff : dev.stopStep outs .modeRequest =
          some (.at .requestExit, { dev with mode := some .off }) := by
        simp [stopStep, setTransceiverMode, hmode]
      have hfails : ∀ before : Device Callback Ctx,
          before.transferThreadStarted = true →
            before.stopStep outs .join = some (.done .thread, before) := by
        intro before hbefore
        simp [stopStep, hbefore, hjoin]
      rw [StopOutcomes.refusal, hmode]
      exact ⟨_, .step (hat hcall hoff) (.step (hat rfl rfl)
        (.step (hdone rfl (hfails _ hstarted)) (.refl _))), hstarted, rfl⟩

theorem returns_stopRx_refused (hidle : dev.call = .idle)
    (hstarted : dev.transferThreadStarted = true) {outs : StopOutcomes}
    (hrefused : ¬ outs.Succeeds) :
    ∃ after, dev.Returns (.stopRx outs) outs.refusal after ∧
      after.transferThreadStarted = true ∧
        after.transferThread = dev.transferThread := by
  have hcall : (dev.goto (.stop outs .modeRequest)).call =
      .stop outs .modeRequest := rfl
  obtain ⟨after, hreaches, hafter, hthread⟩ :=
    apiReaches_refusedStop (Call.stop outs) finish
      (by
        intro before after pc next hcall hstep
        simp [apiStep, hcall, hstep])
      (by
        intro before after pc code hcall hstep
        simp [apiStep, hcall, hstep])
      hcall hstarted hrefused
  exact ⟨after.finish outs.refusal, ⟨hidle, hreaches.goes, rfl, rfl⟩, hafter,
    hthread⟩

theorem closes_refused (hidle : dev.call = .idle)
    (hstarted : dev.transferThreadStarted = true) {outs1 outs2 : StopOutcomes}
    (hfirst : ¬ outs1.Succeeds) (hsecond : ¬ outs2.Succeeds) :
    ∃ after, dev.Closes outs1 outs2 (closeResult outs1.refusal outs2.refusal)
        after ∧
      after.transferThread = dev.transferThread := by
  let close : ClosePc → Call Callback Ctx :=
    .close dev.transferThreadStarted outs1 outs2
  have hcall : (dev.goto (close (.stopRx .modeRequest))).call =
      close (.stopRx .modeRequest) := rfl
  obtain ⟨middle, hmiddle, hstill, hthread⟩ :=
    apiReaches_refusedStop (fun pc => close (.stopRx pc))
      (fun result1 => goto (close (.stopTx result1 .modeRequest)))
      (by
        intro before after pc next hcall hstep
        simp [apiStep, closeStep, close, hcall, hstep])
      (by
        intro before after pc code hcall hstep
        simp [apiStep, closeStep, close, hcall, hstep])
      hcall hstarted hfirst
  have hcall' : (middle.goto (close (.stopTx outs1.refusal .modeRequest))).call =
      close (.stopTx outs1.refusal .modeRequest) := rfl
  obtain ⟨after, hafter, -, hthread'⟩ :=
    apiReaches_refusedStop (fun pc => close (.stopTx outs1.refusal pc))
      (fun result2 => goto (close (.usbClose outs1.refusal result2)))
      (by
        intro before after pc next hcall hstep
        simp [apiStep, closeStep, close, hcall, hstep])
      (by
        intro before after pc code hcall hstep
        simp [apiStep, closeStep, close, hcall, hstep])
      hcall' hstill hsecond
  -- what is left is `libusb_close` and one statement for each transfer
  have hfreed :
      ApiReaches (after.goto (close (.usbClose outs1.refusal outs2.refusal))) _ :=
    .step rfl (.step rfl (.step rfl (.step rfl (.step rfl (.refl _)))))
  exact ⟨_, ⟨hidle, (hmiddle.trans (hafter.trans hfreed)).goes, _, _, _, rfl,
    rfl⟩, hthread'.trans hthread⟩

end Device

end HackRF.Streaming
