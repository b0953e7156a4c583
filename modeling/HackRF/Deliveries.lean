import HackRF.ThreadExit
import HackRF.TransferOwnership

/-!
# Deliveries

A transfer which libusb completes passes through the stages of
`hackrf_libusb_transfer_callback`: the user's callback is called on it, and if
it returns 0 the transfer is submitted again.  No stage loses a transfer, takes
one twice or overtakes another one.

Every transfer has an account.  A start call which gets past its busy check and
a callback which returns 0 pay into it, and every delivery draws on it.
-/

namespace HackRF.Streaming

variable {D Callback Ctx : Type*}

/-! ## The stages of a completion -/

/-- The transfer whose completion handler is at the statement. -/
def Device.handlerAt (phase : HandlerPhase) (dev : Device Callback Ctx) :
    List TransferIndex :=
  match dev.handler with
  | some handler => if handler.phase = phase then [handler.index] else []
  | none => []

namespace Slot

def handlerAt (phase : HandlerPhase) :
    Slot Callback Ctx → List TransferIndex
  | .opened dev => dev.handlerAt phase
  | .closed _ => []

/-- A transfer has completed with `LIBUSB_TRANSFER_COMPLETED`. -/
def completed (_ : Slot Callback Ctx) :
    Action Callback Ctx → List TransferIndex
  | .deliver index .completed => [index]
  | _ => []

/-- A transfer is delivered, whatever its status. -/
def delivered (_ : Slot Callback Ctx) :
    Action Callback Ctx → List TransferIndex
  | .deliver index _ => [index]
  | _ => []

/-- The completion handler executes the statement on a transfer. -/
def handled (phase : HandlerPhase) (slot : Slot Callback Ctx) :
    Action Callback Ctx → List TransferIndex
  | .handler _ => slot.handlerAt phase
  | _ => []

/-- The user's callback returns 0 for a transfer. -/
def accepted (slot : Slot Callback Ctx) :
    Action Callback Ctx → List TransferIndex
  | .handler true => slot.handlerAt .callback
  | _ => []

/-- A start call gets past its busy check and is to submit every transfer. -/
def begun : Slot Callback Ctx → Action Callback Ctx → List TransferIndex
  | .opened dev, action =>
      if dev.beginsSession action then List.finRange transferCount else []
  | .closed _, _ => []

end Slot

namespace Device

variable {dev dev' : Device Callback Ctx} {action : Action Callback Ctx}

theorem Move.handler_of_api (hmove : Move dev .api dev') :
    dev'.handler = dev.handler := by
  cases hmove with
  | stopAt outs pc next dev₁ hcall hstep
  | stopDone outs pc next dev₁ hcall hstep
  | closeStopRx wasStarted outs1 outs2 pc next dev₁ hcall hstep
  | closeStopTx wasStarted outs1 outs2 result1 pc next dev₁ hcall hstep =>
      exact (stopFrame_of_stopStep hstep).handler
  | ctxStored args outs hcall =>
      obtain ⟨direction, callback, ctx⟩ := args
      cases direction <;> rfl
  | _ => rfl

/-- A completed transfer waits at the call of the callback until that is
executed. -/
theorem Move.completed_handled (hmove : Move dev action dev') :
    dev.handlerAt .callback ++ (Slot.opened dev).completed action =
      (Slot.opened dev).handled .callback action ++
        dev'.handlerAt .callback := by
  cases action with
  | «open» => cases hmove
  | enter call =>
      cases hmove
      simp [Slot.completed, Slot.handled, handlerAt, goto]
  | api =>
      simp [Slot.completed, Slot.handled, handlerAt, hmove.handler_of_api]
  | thread failed =>
      cases hmove <;> simp [Slot.completed, Slot.handled, handlerAt]
  | deliver index status =>
      cases hmove with
      | delivered _ _ hinFlight hfree =>
          cases status <;>
            simp [Slot.completed, Slot.handled, handlerAt, hfree]
  | handler ok =>
      cases hmove with
      | callbackCalled _ handler callback hhandler hphase hcallback =>
          cases ok <;>
            simp [Slot.completed, Slot.handled, Slot.handlerAt, handlerAt,
              hhandler, hphase]
      | resubmitted handler hhandler hphase _
      | resubmitRefused _ handler hhandler hphase _
      | exitRequested _ handler hhandler hphase =>
          simp [Slot.completed, Slot.handled, Slot.handlerAt, handlerAt,
            hhandler, hphase]

/-- A transfer which the callback has accepted waits at its submission. -/
theorem Move.accepted_handled (hmove : Move dev action dev') :
    dev.handlerAt .resubmit ++ (Slot.opened dev).accepted action =
      (Slot.opened dev).handled .resubmit action ++
        dev'.handlerAt .resubmit := by
  cases action with
  | «open» => cases hmove
  | enter call =>
      cases hmove
      simp [Slot.accepted, Slot.handled, handlerAt, goto]
  | api =>
      simp [Slot.accepted, Slot.handled, handlerAt, hmove.handler_of_api]
  | thread failed =>
      cases hmove <;> simp [Slot.accepted, Slot.handled, handlerAt]
  | deliver index status =>
      cases hmove with
      | delivered _ _ hinFlight hfree =>
          cases status <;>
            simp [Slot.accepted, Slot.handled, handlerAt, hfree]
  | handler ok =>
      cases hmove with
      | callbackCalled _ handler callback hhandler hphase hcallback
      | resubmitRefused _ handler hhandler hphase hrefused
      | exitRequested _ handler hhandler hphase =>
          cases ok <;>
            simp [Slot.accepted, Slot.handled, Slot.handlerAt, handlerAt,
              hhandler, hphase]
      | resubmitted handler hhandler hphase hfree =>
          simp [Slot.accepted, Slot.handled, Slot.handlerAt, handlerAt,
            hhandler, hphase]

/-! ## The account of a transfer -/

end Device

namespace Device

variable {dev dev' : Device Callback Ctx} {action : Action Callback Ctx}
  {index : TransferIndex}

/-- How often the transfer can still be delivered before something is paid
in. -/
def deliverable (dev : Device Callback Ctx) (index : TransferIndex) : ℕ :=
  (if (dev.transfers index).inFlight = true then 1 else 0) +
    (dev.handlerAt .resubmit).count index +
    if dev.call.willSubmit index = true then 1 else 0

theorem deliverable_goto (call : Call Callback Ctx) :
    (dev.goto call).deliverable index =
      (if (dev.transfers index).inFlight = true then 1 else 0) +
        (dev.handlerAt .resubmit).count index +
        if call.willSubmit index = true then 1 else 0 := rfl

theorem deliverable_le
    (hinFlight : (dev'.transfers index).inFlight =
      (dev.transfers index).inFlight)
    (hhandler : dev'.handler = dev.handler)
    (hcall : dev'.call.willSubmit index = true →
      dev.call.willSubmit index = true) :
    dev'.deliverable index ≤ dev.deliverable index := by
  unfold deliverable handlerAt
  rw [hinFlight, hhandler]
  by_cases hwill : dev'.call.willSubmit index = true
  · rw [if_pos hwill, if_pos (hcall hwill)]
  · rw [if_neg hwill]
    omega

theorem deliverable_submitted {args : StartCall Callback Ctx}
    {outs : StartOutcomes} {next : TransferIndex} {pc : StartPc}
    {session : Option (Session Callback)}
    (hcall : dev.call = .start args outs (.submit next))
    (hfree : (dev.transfers next).inFlight = false)
    (hpc : (∃ after, next.next = some after ∧ pc = .submit after) ∨
      (next.next = none ∧ pc = .setStreaming)) :
    (((dev.setEndpoint next args.direction.endpoint).putInFlight next
        session).goto (.start args outs pc)).deliverable index ≤
      dev.deliverable index := by
  have hlater : (Call.start args outs pc).willSubmit index = true ↔
      next < index := by
    rcases hpc with ⟨after, hnext, rfl⟩ | ⟨hlast, rfl⟩
    · have hlt := TransferIndex.lt_of_next hnext index
      simp only [Call.willSubmit, decide_eq_true_eq]
      grind
    · have hle := TransferIndex.le_of_next_none hlast index
      simp only [Call.willSubmit, Bool.false_eq_true, false_iff]
      grind
  have hnow : dev.call.willSubmit index = true ↔ next ≤ index := by
    simp [hcall, Call.willSubmit]
  have hhandler : (((dev.setEndpoint next
        args.direction.endpoint).putInFlight next session).goto
        (.start args outs pc)).handlerAt .resubmit =
      dev.handlerAt .resubmit := rfl
  unfold deliverable
  rw [hhandler]
  simp only [goto, putInFlight_inFlight, setEndpoint_inFlight, hlater, hnow]
  rcases lt_trichotomy next index with hlt | rfl | hgt
  · simp [hlt, hlt.le, hlt.ne']
  · simp [hfree, Nat.add_comm]
  · simp [hgt.not_gt, hgt.not_ge, hgt.ne]

theorem Move.deliverable_of_api (hmove : Move dev .api dev') :
    dev'.deliverable index ≤
      dev.deliverable index + ((Slot.opened dev).begun .api).count index := by
  cases hmove with
  | begun args outs hcall hstarted =>
      have hcount : (List.finRange transferCount).count index = 1 :=
        List.count_eq_one_of_mem (List.nodup_finRange _)
          (List.mem_finRange index)
      have hbegins : dev.beginsSession .api = true := by
        simp [beginsSession, hcall, hstarted]
      have hbefore : dev.deliverable index =
          (if (dev.transfers index).inFlight = true then 1 else 0) +
            (dev.handlerAt .resubmit).count index := by
        simp [deliverable, hcall, Call.willSubmit]
      rw [deliverable_goto, hbefore, Slot.begun, if_pos hbegins, hcount]
      rfl
  | submitted args outs next pc hcall hfree haccepted hpc =>
      exact Nat.le_add_right_of_le (deliverable_submitted hcall hfree hpc)
  | stopAt outs pc next dev₁ hcall hstep
  | stopDone outs pc next dev₁ hcall hstep
  | closeStopRx wasStarted outs1 outs2 pc next dev₁ hcall hstep
  | closeStopTx wasStarted outs1 outs2 result1 pc next dev₁ hcall hstep =>
      have hframe := stopFrame_of_stopStep hstep
      exact Nat.le_add_right_of_le
        (deliverable_le (hframe.inFlight index) hframe.handler
          (by simp [goto, finish, Call.willSubmit]))
  | ctxStored args outs hcall =>
      obtain ⟨direction, callback, ctx⟩ := args
      cases direction <;>
        exact Nat.le_add_right_of_le
          (deliverable_le rfl rfl (by simp [goto, Call.willSubmit]))
  | _ =>
      exact Nat.le_add_right_of_le
        (deliverable_le (by simp [goto, finish, installCallback]) rfl
          (by simp_all [goto, finish, Call.willSubmit]))

theorem Move.account_of_ne_api (hmove : Move dev action dev')
    (hapi : action ≠ .api) :
    dev'.deliverable index +
        ((Slot.opened dev).delivered action).count index ≤
      dev.deliverable index +
        ((Slot.opened dev).accepted action).count index := by
  cases action with
  | «open» => cases hmove
  | enter call =>
      cases hmove with
      | entered _ hcall =>
          have hsame : (dev.goto (call.entry dev)).deliverable index ≤
              dev.deliverable index :=
            deliverable_le rfl rfl (by simp [goto])
          simpa [Slot.delivered, Slot.accepted] using hsame
  | api => exact absurd rfl hapi
  | thread failed =>
      have hsame : dev'.deliverable index ≤ dev.deliverable index := by
        cases hmove <;> exact deliverable_le rfl rfl id
      simpa [Slot.delivered, Slot.accepted] using hsame
  | deliver taken status =>
      cases hmove with
      | delivered _ _ hinFlight hfree =>
          have hphase : (if status = .completed then HandlerPhase.callback
              else .requestExit) ≠ .resubmit := by
            split_ifs <;> decide
          have hcall : (dev.takeOut taken).call = dev.call := rfl
          by_cases hsame : index = taken
          · subst taken
            simp [deliverable, handlerAt, hphase, hfree, hinFlight, hcall,
              Slot.delivered, Slot.accepted, Nat.add_comm]
          · simp [deliverable, handlerAt, hphase, hfree, hsame, hcall,
              Ne.symm hsame, Slot.delivered, Slot.accepted]
  | handler ok =>
      cases hmove with
      | callbackCalled _ handler callback hhandler hphase hcallback =>
          cases ok <;>
            simp [deliverable, handlerAt, hhandler, hphase, Slot.delivered,
              Slot.accepted, Slot.handlerAt]
          omega
      | resubmitted handler hhandler hphase hfree =>
          have hcall : (dev.putInFlight handler.index
              handler.session).call = dev.call := rfl
          by_cases hsame : index = handler.index
          · subst index
            simp [deliverable, handlerAt, hhandler, hphase, hfree, hcall,
              Slot.delivered, Slot.accepted, Slot.handlerAt]
          · simp [deliverable, handlerAt, hhandler, hphase, hsame, hcall,
              Ne.symm hsame, Slot.delivered, Slot.accepted,
              Slot.handlerAt]
      | resubmitRefused _ handler hhandler hphase hrefused
      | exitRequested _ handler hhandler hphase =>
          cases ok <;>
            simp [deliverable, handlerAt, requestExit, hhandler, hphase,
              Slot.delivered, Slot.accepted, Slot.handlerAt]

/-- What is drawn on the account of a transfer is covered. -/
theorem Move.account (hmove : Move dev action dev') :
    dev'.deliverable index +
        ((Slot.opened dev).delivered action).count index ≤
      dev.deliverable index + ((Slot.opened dev).begun action).count index +
        ((Slot.opened dev).accepted action).count index := by
  cases action with
  | api =>
      have hcovered : dev'.deliverable index ≤ dev.deliverable index +
          ((Slot.opened dev).begun .api).count index :=
        hmove.deliverable_of_api
      simpa [Slot.delivered, Slot.accepted] using hcovered
  | _ =>
      exact (hmove.account_of_ne_api (by simp)).trans
        (Nat.add_le_add_right (Nat.le_add_right _ _) _)

end Device

/-! ## Runs -/

section Runs

variable [DecidableEq D]

/-- What is put out by the steps of the device. -/
def State.on (d : D)
    (output : Slot Callback Ctx → Action Callback Ctx → List TransferIndex)
    (state : State D Callback Ctx) (event : Event D Callback Ctx) :
    List TransferIndex :=
  if event.device = d then output (state.slots d) event.action else []

/-- The transfers of a device for which a run executes `output`. -/
def transfersOf (d : D)
    (output : Slot Callback Ctx → Action Callback Ctx → List TransferIndex)
    (state : State D Callback Ctx) (events : List (Event D Callback Ctx)) :
    List TransferIndex :=
  EventRun.outputs State.step (State.on d output) state events

theorem State.opened_of_step {state next : State D Callback Ctx}
    {event : Event D Callback Ctx} {d : D} {dev' : Device Callback Ctx}
    (hstep : state.step event = some next) (hopen : event ≠ .open d)
    (hnext : next.slots d = .opened dev') :
    ∃ dev, state.slots d = .opened dev := by
  obtain ⟨hself, hother⟩ := State.step_local hstep
  by_cases hd : d = event.device
  · rw [← hd, hnext] at hself
    cases hslot : state.slots d with
    | opened dev => exact ⟨dev, rfl⟩
    | closed result =>
        rw [hslot] at hself
        cases event <;> simp_all [localStep, Event.action, Event.device]
  · exact ⟨dev', (hother d hd).symm.trans hnext⟩

/-- What every move of a device keeps is kept by a run during which the device
is open. -/
theorem State.conserved {d : D}
    (pending : Slot Callback Ctx → List TransferIndex)
    {input output : Slot Callback Ctx → Action Callback Ctx →
      List TransferIndex}
    (hmove : ∀ dev action dev', Device.Move dev action dev' →
      pending (.opened dev) ++ input (.opened dev) action =
        output (.opened dev) action ++ pending (.opened dev'))
    {state final : State D Callback Ctx} {events : List (Event D Callback Ctx)}
    {dev' : Device Callback Ctx}
    (hrun : EventRun.run State.step state events = some final)
    (hopens : ∀ event ∈ events, event ≠ .open d)
    (hdev' : final.slots d = .opened dev') :
    pending (state.slots d) ++ transfersOf d input state events =
      transfersOf d output state events ++ pending (final.slots d) := by
  have hback : ∀ (state : State D Callback Ctx) event next,
      state.step event = some next → event ≠ .open d →
        (∃ dev, next.slots d = .opened dev) →
        ∃ dev, state.slots d = .opened dev := by
    rintro state event next hstep hopen ⟨dev, hslot⟩
    exact State.opened_of_step hstep hopen hslot
  obtain ⟨-, halong⟩ :=
    EventRun.along_of_final hback hopens hrun ⟨dev', hdev'⟩
  refine EventRun.outputs_conserved (fun state => pending (state.slots d))
    ?_ halong hrun
  intro state event next hstep hC
  obtain ⟨hopen, dev', hslot'⟩ := hC
  obtain ⟨dev, hslot⟩ := State.opened_of_step hstep hopen hslot'
  obtain ⟨hself, hother⟩ := State.step_local hstep
  unfold State.on
  by_cases hd : event.device = d
  · rw [hd, hslot, hslot'] at hself
    simp only [hd, if_true, hslot, hslot']
    exact hmove dev event.action dev' (Device.move_of_localStep hself)
  · rw [if_neg hd, if_neg hd, hother d (Ne.symm hd), List.append_nil,
      List.nil_append]

def Slot.deliverable (index : TransferIndex) : Slot Callback Ctx → ℕ
  | .opened dev => dev.deliverable index
  | .closed _ => 0

theorem Slot.account {slot slot' : Slot Callback Ctx}
    {action : Action Callback Ctx} {index : TransferIndex}
    (hstep : localStep slot action = some slot') :
    slot'.deliverable index + (slot.delivered action).count index ≤
      slot.deliverable index + (slot.begun action).count index +
        (slot.accepted action).count index := by
  cases slot with
  | closed result =>
      cases action <;> simp [localStep] at hstep
      subst slot'
      simp [deliverable, Device.deliverable, Device.handlerAt, Device.fresh,
        Call.willSubmit, delivered]
  | opened dev =>
      cases slot' with
      | opened dev' => exact (Device.move_of_localStep hstep).account
      | closed result =>
          cases action with
          | deliver index status =>
              simp [localStep] at hstep
          | _ => simp [deliverable, delivered]

theorem State.account {state next : State D Callback Ctx}
    {event : Event D Callback Ctx} (d : D) (index : TransferIndex)
    (hstep : state.step event = some next) :
    (next.slots d).deliverable index +
        (State.on d Slot.delivered state event).count index ≤
      (state.slots d).deliverable index +
        (State.on d Slot.begun state event).count index +
        (State.on d Slot.accepted state event).count index := by
  obtain ⟨hself, hother⟩ := State.step_local hstep
  unfold State.on
  by_cases hd : event.device = d
  · rw [hd] at hself
    rw [if_pos hd, if_pos hd, if_pos hd]
    exact Slot.account hself
  · simp [hd, hother d (Ne.symm hd)]

/-- While a device is open, its callback is called on exactly the transfers
which complete, in the order of their completions, up to the one whose handler
has not got there yet; and exactly those for which it returns 0 come to be
submitted again, in the same order. -/
theorem completed_called_back {d : D} {state final : State D Callback Ctx}
    {events : List (Event D Callback Ctx)} {dev : Device Callback Ctx}
    (hrun : EventRun.run State.step state events = some final)
    (hopens : ∀ event ∈ events, event ≠ .open d)
    (hdev : final.slots d = .opened dev) :
    (state.slots d).handlerAt .callback ++
          transfersOf d Slot.completed state events =
        transfersOf d (Slot.handled .callback) state events ++
          dev.handlerAt .callback ∧
      (state.slots d).handlerAt .resubmit ++
          transfersOf d Slot.accepted state events =
        transfersOf d (Slot.handled .resubmit) state events ++
          dev.handlerAt .resubmit := by
  constructor
  · have hcalled := State.conserved (Slot.handlerAt .callback)
      (fun dev action dev' hmove => hmove.completed_handled) hrun hopens hdev
    rw [hdev] at hcalled
    exact hcalled
  · have hsubmitted := State.conserved (Slot.handlerAt .resubmit)
      (fun dev action dev' hmove => hmove.accepted_handled) hrun hopens hdev
    rw [hdev] at hsubmitted
    exact hsubmitted

/-- Two transfers of a receiving device complete, and the callback accepts the
first one. -/
theorem completed_called_back_two :
    let before : List (Event Unit ℕ ℕ) :=
      [.open (), .enter () (.startRx 0 0 ⟨true, fun _ => true, true⟩)] ++
        apiSteps () 13 ++ [.thread () false]
    let after : List (Event Unit ℕ ℕ) :=
      [.deliver (.transferThread ()) () 2 .completed,
        .handler () true, .handler () true,
        .deliver (.transferThread ()) () 0 .completed]
    ∃ (state : State Unit ℕ ℕ) (dev : Device ℕ ℕ),
      EventRun.run State.step State.initial before = some state ∧
      (state.slots ()).handlerAt .callback ++
          transfersOf () Slot.completed state after =
        transfersOf () (Slot.handled .callback) state after ++
          dev.handlerAt .callback ∧
      (state.slots ()).handlerAt .resubmit ++
          transfersOf () Slot.accepted state after =
        transfersOf () (Slot.handled .resubmit) state after ++
          dev.handlerAt .resubmit := by
  intro before after
  obtain ⟨state, hrun⟩ : ∃ state,
      EventRun.run State.step State.initial before = some state :=
    Option.isSome_iff_exists.mp (by decide)
  obtain ⟨dev, hdev⟩ : ∃ dev, deviceAfter (before ++ after) () = some dev :=
    Option.isSome_iff_exists.mp (by decide)
  obtain ⟨final, hfinal, hslot⟩ := deviceAfter_eq_some hdev
  rw [EventRun.run_append, hrun] at hfinal
  exact ⟨state, dev, hrun,
    completed_called_back hfinal (by simp [after]) hslot⟩

/-- In every run each transfer of a device is delivered at most once for every
start call which gets past its busy check, and once more for every time that
the callback has returned 0 for it. -/
theorem deliveries_le {events : List (Event D Callback Ctx)}
    {final : State D Callback Ctx}
    (hrun : EventRun.run State.step State.initial events = some final)
    (d : D) (index : TransferIndex) :
    (final.slots d).deliverable index +
        (transfersOf d Slot.delivered State.initial events).count index ≤
      (transfersOf d Slot.begun State.initial events).count index +
        (transfersOf d Slot.accepted State.initial events).count index := by
  have hcovered : (final.slots d).deliverable index +
        (transfersOf d Slot.delivered State.initial events).count index ≤
      ((State.initial : State D Callback Ctx).slots d).deliverable index +
        (EventRun.outputs State.step (fun state event =>
          State.on d Slot.begun state event ++
            State.on d Slot.accepted state event)
          State.initial events).count index := by
    refine EventRun.count_outputs_le
      (fun state : State D Callback Ctx => (state.slots d).deliverable index)
      (fun state event next hstep => ?_) hrun
    rw [List.count_append, ← Nat.add_assoc]
    exact State.account d index hstep
  have hinitial : ((State.initial : State D Callback Ctx).slots d).deliverable
      index = 0 := rfl
  rw [EventRun.count_outputs_append, hinitial, Nat.zero_add] at hcovered
  exact hcovered

/-- A callback which returns an error is called on transfer 1. -/
theorem deliveries_le_refused :
    let events : List (Event Unit ℕ ℕ) :=
      [.open (), .enter () (.startRx 0 0 ⟨true, fun _ => true, true⟩)] ++
        apiSteps () 13 ++
      [.thread () false, .deliver (.transferThread ()) () 1 .completed,
        .handler () false, .handler () true]
    ∃ final, EventRun.run State.step State.initial events = some final ∧
      (final.slots ()).deliverable 1 +
          (transfersOf () Slot.delivered State.initial events).count 1 ≤
        (transfersOf () Slot.begun State.initial events).count 1 +
          (transfersOf () Slot.accepted State.initial events).count 1 := by
  intro events
  obtain ⟨final, hrun⟩ : ∃ final,
      EventRun.run State.step State.initial events = some final :=
    Option.isSome_iff_exists.mp (by decide)
  exact ⟨final, hrun, deliveries_le hrun () 1⟩

end Runs

end HackRF.Streaming
