import HackRF.EventRun
import HackRF.StreamingDevice

/-!
# The interleaved streaming machine

Any number of devices share one libusb context.  The application makes API
calls, one at a time on each device; every started device has a transfer
thread; and libusb may complete any transfer in flight, on any device, as soon
as some thread handles events: a transfer thread in
`libusb_handle_events_timeout`, or an API call inside a synchronous control
transfer.  The completion handler then runs on that thread.  libusb runs one
completion handler of a context at a time, which `eventLock` records.

Every event moves one device, so the machine is a product of the local machine
`localStep` restricted by `enabled`.

`hackrf_cpld_write` is left out.  It commands the mode `CPLD_UPDATE` and then
loops over bulk transfers, and belongs to firmware updates.
-/

namespace HackRF.Streaming

variable {D Callback Ctx : Type*}

/-- The functions of the library that an application calls on an open device,
except `hackrf_cpld_write`: `control` is any of those that make synchronous
control requests and leave the transceiver mode alone.  The outcomes that the
outside world has in store for the call are fixed at its start. -/
inductive ApiCall (Callback Ctx : Type*) where
  | control (result : HackrfError)
  | startRx (callback : Callback) (rxCtx : Ctx) (outs : StartOutcomes)
  | startTx (callback : Callback) (txCtx : Ctx) (outs : StartOutcomes)
  | stopRx (outs : StopOutcomes)
  | stopTx (outs : StopOutcomes)
  | close (outs1 outs2 : StopOutcomes)

inductive Action (Callback Ctx : Type*) where
  | open
  | enter (call : ApiCall Callback Ctx)
  | api
  | thread (failed : Bool)
  | deliver (index : TransferIndex) (status : TransferStatus)
  | handler (ok : Bool)

/-- A device handle before it is opened or after it is closed, with the code
the close call returned, or an opened device. -/
inductive Slot (Callback Ctx : Type*) where
  | closed (result : Option HackrfError)
  | opened (dev : Device Callback Ctx)

def ApiCall.entry (dev : Device Callback Ctx) :
    ApiCall Callback Ctx → Call Callback Ctx
  | .control result => .control result
  | .startRx callback rxCtx outs => .start ⟨.rx, callback, rxCtx⟩ outs .modeRequest
  | .startTx callback txCtx outs => .start ⟨.tx, callback, txCtx⟩ outs .modeRequest
  | .stopRx outs => .stop outs .modeRequest
  | .stopTx outs => .stop outs .modeRequest
  | .close outs1 outs2 =>
      .close dev.transferThreadStarted outs1 outs2 (.stopRx .modeRequest)

/-- Whether the statement is a synchronous control transfer, which handles
events while it waits. -/
def Call.inControlTransfer : Call Callback Ctx → Bool
  | .control _ => true
  | .start _ _ .modeRequest => true
  | .stop _ .modeRequest => true
  | .close _ _ _ (.stopRx .modeRequest) => true
  | .close _ _ _ (.stopTx _ .modeRequest) => true
  | _ => false

def Device.apiStep (dev : Device Callback Ctx) :
    Option (Slot Callback Ctx) :=
  match dev.call with
  | .idle => none
  | .control result => some (.opened (dev.finish result))
  | .start args outs pc => some (.opened (dev.startStep args outs pc))
  | .stop outs pc =>
      (dev.stopStep outs pc).map fun
        | (.at pc, dev) => .opened (dev.goto (.stop outs pc))
        | (.done code, dev) => .opened (dev.finish code)
  | .close _ _ _ (.freeDevice result1 result2) =>
      some (.closed (some (Device.closeResult result1 result2)))
  | .close wasStarted outs1 outs2 pc =>
      (dev.closeStep wasStarted outs1 outs2 pc).map .opened

def localStep : Slot Callback Ctx → Action Callback Ctx →
    Option (Slot Callback Ctx)
  | .closed _, .open => some (.opened Device.fresh)
  | .closed _, _ => none
  | .opened _, .open => none
  | .opened dev, .enter call =>
      match dev.call with
      | .idle => some (.opened (dev.goto (call.entry dev)))
      | _ => none
  | .opened dev, .api => dev.apiStep
  | .opened dev, .thread failed => (dev.threadStep failed).map .opened
  | .opened dev, .deliver index status => (dev.deliver index status).map .opened
  | .opened dev, .handler ok => (dev.handlerStep ok).map .opened

/-- A thread of control that can handle events. -/
inductive Executor (D : Type*) where
  | transferThread (d : D)
  | apiCall (d : D)
  deriving DecidableEq

/-- An action on device `d`.  A completion is delivered by an executor. -/
inductive Event (D Callback Ctx : Type*) where
  | open (d : D)
  | enter (d : D) (call : ApiCall Callback Ctx)
  | api (d : D)
  | thread (d : D) (failed : Bool)
  | deliver (executor : Executor D) (d : D) (index : TransferIndex)
      (status : TransferStatus)
  | handler (d : D) (ok : Bool)

def Event.device : Event D Callback Ctx → D
  | .open d => d
  | .enter d _ => d
  | .api d => d
  | .thread d _ => d
  | .deliver _ d _ _ => d
  | .handler d _ => d

def Event.action : Event D Callback Ctx → Action Callback Ctx
  | .open _ => .open
  | .enter _ call => .enter call
  | .api _ => .api
  | .thread _ failed => .thread failed
  | .deliver _ _ index status => .deliver index status
  | .handler _ ok => .handler ok

/-- All device handles of the process, and the completion handler in progress:
the executor it runs on and the device its transfer belongs to. -/
structure State (D Callback Ctx : Type*) where
  slots : D → Slot Callback Ctx
  eventLock : Option (Executor D × D)

def State.initial : State D Callback Ctx where
  slots := fun _ => .closed none
  eventLock := none

/-- The executor is waiting in an event-handling call. -/
def State.handlesEvents (state : State D Callback Ctx) : Executor D → Bool
  | .transferThread d =>
      match state.slots d with
      | .opened dev => dev.transferThread = .handlingEvents
      | .closed _ => false
  | .apiCall d =>
      match state.slots d with
      | .opened dev => dev.call.inControlTransfer
      | .closed _ => false

variable [DecidableEq D]

def State.isFree (state : State D Callback Ctx) (executor : Executor D) : Bool :=
  match state.eventLock with
  | some (holder, _) => holder ≠ executor
  | none => true

/-- The scheduling constraints on an event. -/
def State.enabled (state : State D Callback Ctx) :
    Event D Callback Ctx → Bool
  | .open _ => true
  | .enter _ _ => true
  | .api d => state.isFree (.apiCall d)
  | .thread d _ => state.isFree (.transferThread d)
  | .deliver executor _ _ _ =>
      state.eventLock.isNone && state.handlesEvents executor
  | .handler d _ =>
      match state.eventLock with
      | some (_, owner) => owner = d
      | none => false

/-- The completion handler in progress after an event that left `slot` for its
device.  A handler whose device has been freed is gone with it. -/
def State.nextLock (state : State D Callback Ctx)
    (event : Event D Callback Ctx) (slot : Slot Callback Ctx) :
    Option (Executor D × D) :=
  match event, slot with
  | .deliver executor d _ _, _ => some (executor, d)
  | .handler _ _, .opened dev =>
      if dev.handler.isNone then none else state.eventLock
  | .api d, .closed _ => state.eventLock.filter fun lock => lock.2 ≠ d
  | _, _ => state.eventLock

def State.step (state : State D Callback Ctx)
    (event : Event D Callback Ctx) : Option (State D Callback Ctx) :=
  if state.enabled event then
    (localStep (state.slots event.device) event.action).map fun slot => {
      slots := Function.update state.slots event.device slot
      eventLock := state.nextLock event slot }
  else none

def State.device (state : State D Callback Ctx) (d : D) :
    Option (Device Callback Ctx) :=
  match state.slots d with
  | .opened dev => some dev
  | .closed _ => none

/-- The open device behind a handle after a run from the state in which
nothing is open. -/
def deviceAfter (events : List (Event D Callback Ctx)) (d : D) :
    Option (Device Callback Ctx) :=
  (EventRun.run State.step State.initial events).bind fun state =>
    state.device d

/-! ## Every event moves one device by a local step -/

theorem State.step_local {state next : State D Callback Ctx}
    {event : Event D Callback Ctx} (hstep : state.step event = some next) :
    localStep (state.slots event.device) event.action =
        some (next.slots event.device) ∧
      ∀ d, d ≠ event.device → next.slots d = state.slots d := by
  unfold State.step at hstep
  split at hstep
  next =>
    obtain ⟨slot, hslot, hnext⟩ := Option.map_eq_some_iff.mp hstep
    subst hnext
    refine ⟨?_, fun d hd => ?_⟩
    · simpa using hslot
    · simp [Function.update_of_ne hd]
  next => simp at hstep

/-- A predicate on open devices, extended to slots. -/
def Slot.Holds (Inv : Device Callback Ctx → Prop) : Slot Callback Ctx → Prop
  | .opened dev => Inv dev
  | .closed _ => True

instance (Inv : Device Callback Ctx → Prop) [DecidablePred Inv] :
    ∀ slot : Slot Callback Ctx, Decidable (slot.Holds Inv)
  | .opened dev => inferInstanceAs (Decidable (Inv dev))
  | .closed _ => isTrue trivial

@[simp] theorem Slot.holds_opened
    (Inv : Device Callback Ctx → Prop) (dev : Device Callback Ctx) :
    Slot.Holds Inv (.opened dev) ↔ Inv dev := Iff.rfl

@[simp] theorem Slot.holds_closed
    (Inv : Device Callback Ctx → Prop) (result : Option HackrfError) :
    Slot.Holds Inv (.closed result : Slot Callback Ctx) := trivial

/-- A condition on the actions of single devices, read as a condition on the
steps of the machine. -/
def OnDevice (C : Device Callback Ctx → Action Callback Ctx → Prop)
    (state : State D Callback Ctx) (event : Event D Callback Ctx)
    (_ : State D Callback Ctx) : Prop :=
  Slot.Holds (fun dev => C dev event.action) (state.slots event.device)

instance (C : Device Callback Ctx → Action Callback Ctx → Prop)
    [∀ dev action, Decidable (C dev action)]
    (state : State D Callback Ctx) (event : Event D Callback Ctx)
    (next : State D Callback Ctx) :
    Decidable (OnDevice C state event next) :=
  inferInstanceAs (Decidable (Slot.Holds _ (state.slots event.device)))

omit [DecidableEq D] in
theorem onDevice_true (state : State D Callback Ctx)
    (event : Event D Callback Ctx) (next : State D Callback Ctx) :
    OnDevice (fun _ _ => True) state event next := by
  unfold OnDevice
  cases state.slots event.device <;> trivial

/-- A local invariant: fresh devices have it, and every local step from an
open device which meets `C` keeps it. -/
structure LocalInvariant
    (C : Device Callback Ctx → Action Callback Ctx → Prop)
    (Inv : Device Callback Ctx → Prop) : Prop where
  fresh : Inv Device.fresh
  keep : ∀ dev action dev', C dev action →
    localStep (.opened dev) action = some (.opened dev') → Inv dev → Inv dev'

theorem LocalInvariant.slot
    {C : Device Callback Ctx → Action Callback Ctx → Prop}
    {Inv : Device Callback Ctx → Prop} (hlocal : LocalInvariant C Inv)
    {slot slot' : Slot Callback Ctx} {action : Action Callback Ctx}
    (hC : slot.Holds fun dev => C dev action)
    (hstep : localStep slot action = some slot') (hinv : slot.Holds Inv) :
    slot'.Holds Inv := by
  cases slot with
  | closed result =>
      cases action <;> simp [localStep] at hstep
      subst slot'
      simpa using hlocal.fresh
  | opened dev =>
      cases slot' with
      | closed result => simp
      | opened dev' =>
          rw [Slot.holds_opened] at hC hinv ⊢
          exact hlocal.keep dev action dev' hC hstep hinv

theorem LocalInvariant.step
    {C : Device Callback Ctx → Action Callback Ctx → Prop}
    {Inv : Device Callback Ctx → Prop} (hlocal : LocalInvariant C Inv)
    {state next : State D Callback Ctx} {event : Event D Callback Ctx}
    (hstep : state.step event = some next)
    (hC : OnDevice C state event next)
    (hinv : ∀ d, (state.slots d).Holds Inv) (d : D) :
    (next.slots d).Holds Inv := by
  obtain ⟨hself, hother⟩ := State.step_local hstep
  exact EventRun.forall_component event.device hother
    (fun hbefore => hlocal.slot hC hself hbefore) hinv d

/-- `n` statements of the API call in progress on `d`. -/
def apiSteps (d : D) (n : ℕ) : List (Event D Callback Ctx) :=
  List.replicate n (.api d)

theorem deviceAfter_eq_some {events : List (Event D Callback Ctx)} {d : D}
    {dev : Device Callback Ctx} (hdev : deviceAfter events d = some dev) :
    ∃ state, EventRun.run State.step State.initial events = some state ∧
      state.slots d = .opened dev := by
  obtain ⟨state, hrun, hdevice⟩ := Option.bind_eq_some_iff.mp hdev
  refine ⟨state, hrun, ?_⟩
  unfold State.device at hdevice
  split at hdevice
  next hslot =>
    rw [hslot, Option.some.inj hdevice]
  next => simp at hdevice

/-- A local invariant holds of every device after every run whose steps all
meet the condition. -/
theorem LocalInvariant.of_along
    {C : Device Callback Ctx → Action Callback Ctx → Prop}
    {Inv : Device Callback Ctx → Prop} (hlocal : LocalInvariant C Inv)
    {events : List (Event D Callback Ctx)} {d : D} {dev : Device Callback Ctx}
    (halong : EventRun.Along State.step (OnDevice C) State.initial events)
    (hdev : deviceAfter events d = some dev) :
    Inv dev := by
  obtain ⟨state, hrun, hslot⟩ := deviceAfter_eq_some hdev
  have hall : ∀ d, (state.slots d).Holds Inv :=
    EventRun.invariant_of_along
      (fun state : State D Callback Ctx => ∀ d, (state.slots d).Holds Inv)
      (fun before event after hstep hC hinv d =>
        hlocal.step hstep hC hinv d)
      (fun d => by simp [State.initial]) halong hrun
  have hself := hall d
  rw [hslot] at hself
  exact hself

theorem LocalInvariant.of_reachable
    {Inv : Device Callback Ctx → Prop}
    (hlocal : LocalInvariant (fun _ _ => True) Inv)
    {events : List (Event D Callback Ctx)} {d : D} {dev : Device Callback Ctx}
    (hdev : deviceAfter events d = some dev) :
    Inv dev := by
  obtain ⟨state, hrun, hslot⟩ := deviceAfter_eq_some hdev
  have hall : ∀ d, (state.slots d).Holds Inv :=
    EventRun.invariant_of_run
      (fun state : State D Callback Ctx => ∀ d, (state.slots d).Holds Inv)
      (fun before event after hstep hinv d =>
        hlocal.step hstep (onDevice_true before event after) hinv d)
      (fun d => by simp [State.initial]) hrun
  have hself := hall d
  rw [hslot] at hself
  exact hself

end HackRF.Streaming
