import HackRF.LibraryTypes

/-!
# The streaming part of a device

A `Device` is an opened `struct hackrf_device` together with what the outside
world knows about it: the mode last commanded to the hardware, the state of
its transfer thread, the completion handler running on one of its transfers
and the API call the application is in.  `libusb` and `pthread` are outside
the repository; whether a call to them succeeds is an input.  Of libusb only
the following is used: a submitted transfer is in flight until its completion
is delivered, submitting it again before that fails, and a cancellation is
only a request.

The first half of the file has the functions of `hackrf.c` run without
interference.  The second half has the same functions one statement at a time,
for the interleaved machine.
-/

namespace HackRF.Streaming

variable {Callback Ctx : Type*}

/-- `hackrf_start_rx` and `hackrf_start_tx` differ in their direction only. -/
inductive Direction where
  | rx
  | tx
  deriving DecidableEq, Repr

def Direction.mode : Direction → TransceiverMode
  | .rx => .receive
  | .tx => .transmit

def Direction.endpoint : Direction → Endpoint
  | .rx => .bulkIn
  | .tx => .bulkOut

structure StartCall (Callback Ctx : Type*) where
  direction : Direction
  callback : Callback
  ctx : Ctx

/-- What the outside world answers during a start call: the mode request,
each `libusb_submit_transfer` on a transfer which is not in flight, and
`pthread_create`. -/
structure StartOutcomes where
  mode : Bool
  submit : TransferIndex → Bool
  create : Bool

structure StopOutcomes where
  mode : Bool
  join : Bool

/-- A start call which got past the busy check: its number among those of the
device, and the callback it was given. -/
structure Session (Callback : Type*) where
  number : ℕ
  callback : Callback

/-- A `libusb_transfer` of the device.  `session` is a history variable: the
start call by which the transfer was submitted. -/
structure Transfer (Callback : Type*) where
  allocated : Bool
  endpoint : Endpoint
  inFlight : Bool
  cancelRequested : Bool
  session : Option (Session Callback)

/-- `transfer_threadproc`, or no thread: it was never created, or it has been
joined. -/
inductive ThreadState where
  | absent
  | atTest
  | handlingEvents
  | exited
  deriving DecidableEq, Repr

/-- The statement a completion handler is at. -/
inductive HandlerPhase where
  | callback
  | resubmit
  | requestExit
  deriving DecidableEq, Repr

/-- An activation of `hackrf_libusb_transfer_callback`. -/
structure Handler (Callback : Type*) where
  index : TransferIndex
  session : Option (Session Callback)
  phase : HandlerPhase

/-- The statements of a start call, down through `create_transfer_thread` and
`prepare_transfers`. -/
inductive StartPc where
  | modeRequest
  | storeCtx
  | testStarted
  | clearStreaming
  | clearDoExit
  | submit (index : TransferIndex)
  | setStreaming
  | setCallback
  | createThread
  | setStarted
  deriving DecidableEq

/-- The statements of a stop call, down through `kill_transfer_thread` and
`cancel_transfers`. -/
inductive StopPc where
  | modeRequest
  | requestExit
  | join
  | clearStarted
  | cancel (index : TransferIndex)
  deriving DecidableEq

/-- What a statement of a stop call leads to. -/
inductive StopNext where
  | at (pc : StopPc)
  | done (code : HackrfError)

/-- The statements of `hackrf_close`, with its locals `result1`, `result2`. -/
inductive ClosePc where
  | stopRx (pc : StopPc)
  | stopTx (result1 : HackrfError) (pc : StopPc)
  | usbClose (result1 result2 : HackrfError)
  | freeTransfer (result1 result2 : HackrfError) (index : TransferIndex)
  | freeDevice (result1 result2 : HackrfError)
  deriving DecidableEq

/-- The API call in progress.  `control` stands for any other function that
makes synchronous control requests and leaves the transceiver mode alone.  The
one other function that commands a mode, `hackrf_cpld_write`, is not among the
calls.  A close call remembers whether a transfer thread was started when it
was entered. -/
inductive Call (Callback Ctx : Type*) where
  | idle
  | control (result : HackrfError)
  | start (args : StartCall Callback Ctx) (outs : StartOutcomes) (pc : StartPc)
  | stop (outs : StopOutcomes) (pc : StopPc)
  | close (wasStarted : Bool) (outs1 outs2 : StopOutcomes) (pc : ClosePc)

/-- An opened device.  `sessions` counts the start calls which got past the
busy check, `installed` is the number of the one which last assigned
`callback`, and `served` says on which buffers the callback of the latest one
has been called since it began; these three are history variables. -/
structure Device (Callback Ctx : Type*) where
  usbOpen : Bool
  transfers : TransferIndex → Transfer Callback
  callback : Option Callback
  transferThreadStarted : Bool
  transferThread : ThreadState
  streaming : Bool
  rxCtx : Option Ctx
  txCtx : Option Ctx
  doExit : Bool
  mode : Option TransceiverMode
  handler : Option (Handler Callback)
  call : Call Callback Ctx
  returned : Option HackrfError
  sessions : ℕ
  installed : ℕ
  served : TransferIndex → Bool

namespace Device

/-- A device as `hackrf_open_setup` leaves it.  The two context pointers are
not initialised by the source. -/
def fresh : Device Callback Ctx where
  usbOpen := true
  transfers := fun _ => {
    allocated := true
    endpoint := .unset
    inFlight := false
    cancelRequested := false
    session := none }
  callback := none
  transferThreadStarted := false
  transferThread := .absent
  streaming := false
  rxCtx := none
  txCtx := none
  doExit := false
  mode := none
  handler := none
  call := .idle
  returned := none
  sessions := 0
  installed := 0
  served := fun _ => false

/-! ## The functions of the source -/

def setTransceiverMode (ok : Bool) (value : TransceiverMode)
    (dev : Device Callback Ctx) : HackrfError × Device Callback Ctx :=
  if ok then (.success, { dev with mode := some value }) else (.libusb, dev)

def storeCtx (direction : Direction) (ctx : Ctx)
    (dev : Device Callback Ctx) : Device Callback Ctx :=
  match direction with
  | .rx => { dev with rxCtx := some ctx }
  | .tx => { dev with txCtx := some ctx }

def setTransfer (index : TransferIndex) (transfer : Transfer Callback)
    (dev : Device Callback Ctx) : Device Callback Ctx :=
  { dev with transfers := Function.update dev.transfers index transfer }

def setEndpoint (index : TransferIndex) (endpoint : Endpoint)
    (dev : Device Callback Ctx) : Device Callback Ctx :=
  dev.setTransfer index { dev.transfers index with endpoint := endpoint }

def putInFlight (index : TransferIndex) (session : Option (Session Callback))
    (dev : Device Callback Ctx) : Device Callback Ctx :=
  dev.setTransfer index
    { dev.transfers index with
      inFlight := true, cancelRequested := false, session := session }

/-- `libusb_submit_transfer`: refused with `LIBUSB_ERROR_BUSY` if the transfer
is in flight, otherwise accepted or refused by the outside world. -/
def submitTransfer (ok : Bool) (index : TransferIndex)
    (session : Option (Session Callback)) (dev : Device Callback Ctx) :
    Bool × Device Callback Ctx :=
  if (dev.transfers index).inFlight then (false, dev)
  else if ok then (true, dev.putInFlight index session)
  else (false, dev)

/-- The session which the start call in progress submits transfers for. -/
def currentSession (args : StartCall Callback Ctx)
    (dev : Device Callback Ctx) : Session Callback where
  number := dev.sessions
  callback := args.callback

/-- The loop of `prepare_transfers` over the remaining indices. -/
def prepareLoop (args : StartCall Callback Ctx) (submit : TransferIndex → Bool) :
    List TransferIndex → Device Callback Ctx →
      HackrfError × Device Callback Ctx
  | [], dev => (.success, dev)
  | index :: rest, dev =>
      match (dev.setEndpoint index args.direction.endpoint).submitTransfer
          (submit index) index (some (dev.currentSession args)) with
      | (true, dev) => prepareLoop args submit rest dev
      | (false, dev) => (.libusb, dev)

/-- `prepare_transfers`; `device->transfers` is never `NULL` in an opened
device. -/
def prepareTransfers (args : StartCall Callback Ctx)
    (submit : TransferIndex → Bool) (dev : Device Callback Ctx) :
    HackrfError × Device Callback Ctx :=
  prepareLoop args submit (List.finRange transferCount) dev

def installCallback (callback : Callback) (dev : Device Callback Ctx) :
    Device Callback Ctx :=
  { dev with callback := some callback, installed := dev.sessions }

/-- The start call is past the busy check: a new session, which has served no
buffer yet. -/
def beginSession (dev : Device Callback Ctx) : Device Callback Ctx :=
  { dev with sessions := dev.sessions + 1, served := fun _ => false }

def createTransferThread (args : StartCall Callback Ctx) (outs : StartOutcomes)
    (dev : Device Callback Ctx) : HackrfError × Device Callback Ctx :=
  if dev.transferThreadStarted = false then
    match prepareTransfers args outs.submit
        { dev.beginSession with streaming := false, doExit := false } with
    | (.success, dev) =>
        let dev := { dev with streaming := true }.installCallback args.callback
        if outs.create then
          (.success,
            { dev with transferThread := .atTest, transferThreadStarted := true })
        else (.thread, dev)
    | (code, dev) => (code, dev)
  else (.busy, dev)

/-- The common body of `hackrf_start_rx` and `hackrf_start_tx`. -/
def hackrfStart (args : StartCall Callback Ctx) (outs : StartOutcomes)
    (dev : Device Callback Ctx) : HackrfError × Device Callback Ctx :=
  match dev.setTransceiverMode outs.mode args.direction.mode with
  | (.success, dev) =>
      (dev.storeCtx args.direction args.ctx).createTransferThread args outs
  | (code, dev) => (code, dev)

def hackrfStartRx (callback : Callback) (rxCtx : Ctx) (outs : StartOutcomes)
    (dev : Device Callback Ctx) : HackrfError × Device Callback Ctx :=
  hackrfStart ⟨.rx, callback, rxCtx⟩ outs dev

def hackrfStartTx (callback : Callback) (txCtx : Ctx) (outs : StartOutcomes)
    (dev : Device Callback Ctx) : HackrfError × Device Callback Ctx :=
  hackrfStart ⟨.tx, callback, txCtx⟩ outs dev

def hackrfIsStreaming (dev : Device Callback Ctx) : HackrfError :=
  if dev.transferThreadStarted = true ∧ dev.streaming = true ∧
      dev.doExit = false then .true
  else if dev.transferThreadStarted = false then .streamingThreadErr
  else if dev.streaming = false then .streamingStopped
  else .streamingExitCalled

def requestExit (dev : Device Callback Ctx) : Device Callback Ctx :=
  { dev with doExit := true }

/-- `libusb_cancel_transfer` as called by `cancel_transfers`. -/
def cancelTransfer (index : TransferIndex) (dev : Device Callback Ctx) :
    Device Callback Ctx :=
  dev.setTransfer index
    { dev.transfers index with
      cancelRequested :=
        (dev.transfers index).cancelRequested ||
          (dev.transfers index).allocated && (dev.transfers index).inFlight }

/-- `libusb_free_transfer` and the `NULL` assignment of `free_transfers`. -/
def freeTransfer (index : TransferIndex) (dev : Device Callback Ctx) :
    Device Callback Ctx :=
  dev.setTransfer index { dev.transfers index with allocated := false }

/-! ## The same functions, one statement at a time -/

def goto (call : Call Callback Ctx) (dev : Device Callback Ctx) :
    Device Callback Ctx :=
  { dev with call := call }

def finish (code : HackrfError) (dev : Device Callback Ctx) :
    Device Callback Ctx :=
  { dev with call := .idle, returned := some code }

def startStep (args : StartCall Callback Ctx) (outs : StartOutcomes) :
    StartPc → Device Callback Ctx → Device Callback Ctx
  | .modeRequest, dev =>
      match dev.setTransceiverMode outs.mode args.direction.mode with
      | (.success, dev) => dev.goto (.start args outs .storeCtx)
      | (code, dev) => dev.finish code
  | .storeCtx, dev =>
      (dev.storeCtx args.direction args.ctx).goto
        (.start args outs .testStarted)
  | .testStarted, dev =>
      if dev.transferThreadStarted = false then
        dev.beginSession.goto (.start args outs .clearStreaming)
      else dev.finish .busy
  | .clearStreaming, dev =>
      { dev with streaming := false }.goto (.start args outs .clearDoExit)
  | .clearDoExit, dev =>
      { dev with doExit := false }.goto (.start args outs (.submit 0))
  | .submit index, dev =>
      match (dev.setEndpoint index args.direction.endpoint).submitTransfer
          (outs.submit index) index (some (dev.currentSession args)) with
      | (true, dev) =>
          match index.next with
          | some index => dev.goto (.start args outs (.submit index))
          | none => dev.goto (.start args outs .setStreaming)
      | (false, dev) => dev.finish .libusb
  | .setStreaming, dev =>
      { dev with streaming := true }.goto (.start args outs .setCallback)
  | .setCallback, dev =>
      (dev.installCallback args.callback).goto (.start args outs .createThread)
  | .createThread, dev =>
      if outs.create then
        { dev with transferThread := .atTest }.goto
          (.start args outs .setStarted)
      else dev.finish .thread
  | .setStarted, dev =>
      { dev with transferThreadStarted := true }.finish .success

/-- One statement of a stop call; `none` while `pthread_join` waits for the
thread. -/
def stopStep (outs : StopOutcomes) :
    StopPc → Device Callback Ctx → Option (StopNext × Device Callback Ctx)
  | .modeRequest, dev =>
      match dev.setTransceiverMode outs.mode .off with
      | (.success, dev) => some (.at .requestExit, dev)
      | (code, dev) => some (.done code, dev)
  | .requestExit, dev => some (.at .join, dev.requestExit)
  | .join, dev =>
      if dev.transferThreadStarted = false then some (.done .success, dev)
      else if outs.join = false then some (.done .thread, dev)
      else if dev.transferThread = .exited then
        some (.at .clearStarted, { dev with transferThread := .absent })
      else none
  | .clearStarted, dev =>
      some (.at (.cancel 0), { dev with transferThreadStarted := false })
  | .cancel index, dev =>
      match index.next with
      | some next => some (.at (.cancel next), dev.cancelTransfer index)
      | none => some (.done .success, dev.cancelTransfer index)

/-- One statement of `hackrf_close` before the record itself is freed. -/
def closeStep (wasStarted : Bool) (outs1 outs2 : StopOutcomes) :
    ClosePc → Device Callback Ctx → Option (Device Callback Ctx)
  | .stopRx pc, dev =>
      (dev.stopStep outs1 pc).map fun
        | (.at pc, dev) =>
            dev.goto (.close wasStarted outs1 outs2 (.stopRx pc))
        | (.done result1, dev) =>
            dev.goto
              (.close wasStarted outs1 outs2 (.stopTx result1 .modeRequest))
  | .stopTx result1 pc, dev =>
      (dev.stopStep outs2 pc).map fun
        | (.at pc, dev) =>
            dev.goto (.close wasStarted outs1 outs2 (.stopTx result1 pc))
        | (.done result2, dev) =>
            dev.goto
              (.close wasStarted outs1 outs2 (.usbClose result1 result2))
  | .usbClose result1 result2, dev =>
      some ({ dev with usbOpen := false }.goto
        (.close wasStarted outs1 outs2 (.freeTransfer result1 result2 0)))
  | .freeTransfer result1 result2 index, dev =>
      match index.next with
      | some next =>
          some ((dev.freeTransfer index).goto
            (.close wasStarted outs1 outs2
              (.freeTransfer result1 result2 next)))
      | none =>
          some ((dev.freeTransfer index).goto
            (.close wasStarted outs1 outs2 (.freeDevice result1 result2)))
  | .freeDevice _ _, _ => none

def closeResult (result1 result2 : HackrfError) : HackrfError :=
  if result2 ≠ .success then result2 else result1

/-- One iteration step of `transfer_threadproc`.  `failed` says that
`libusb_handle_events_timeout` returned an error other than
`LIBUSB_ERROR_INTERRUPTED`. -/
def threadStep (failed : Bool) (dev : Device Callback Ctx) :
    Option (Device Callback Ctx) :=
  match dev.transferThread with
  | .atTest =>
      if dev.streaming = true ∧ dev.doExit = false then
        some { dev with transferThread := .handlingEvents }
      else some { dev with transferThread := .exited }
  | .handlingEvents =>
      if failed then
        some { dev with transferThread := .atTest, streaming := false }
      else some { dev with transferThread := .atTest }
  | .absent => none
  | .exited => none

/-- libusb takes a finished transfer out of flight and enters
`hackrf_libusb_transfer_callback`, which branches on the status. -/
def deliver (index : TransferIndex) (status : TransferStatus)
    (dev : Device Callback Ctx) : Option (Device Callback Ctx) :=
  if (dev.transfers index).allocated = true ∧
      (dev.transfers index).inFlight = true ∧
      (status = .cancelled → (dev.transfers index).cancelRequested = true) ∧
      dev.handler.isNone then
    some { dev.setTransfer index
        { dev.transfers index with inFlight := false } with
      handler := some {
        index := index
        session := (dev.transfers index).session
        phase := if status = .completed then .callback else .requestExit } }
  else none

/-- One statement of `hackrf_libusb_transfer_callback`.  At the user callback
`ok` says that it returned 0, at the resubmission that libusb accepts it.
Calling a `NULL` callback has no continuation. -/
def handlerStep (ok : Bool) (dev : Device Callback Ctx) :
    Option (Device Callback Ctx) :=
  dev.handler.bind fun handler =>
    match handler.phase with
    | .callback =>
        dev.callback.map fun _ =>
          { dev with
            handler := some { handler with
              phase := if ok then .resubmit else .requestExit }
            served :=
              if dev.installed = dev.sessions then
                Function.update dev.served handler.index true
              else dev.served }
    | .resubmit =>
        match dev.submitTransfer ok handler.index handler.session with
        | (true, dev) => some { dev with handler := none }
        | (false, dev) =>
            some { dev with
              handler := some { handler with phase := .requestExit } }
    | .requestExit => some { dev.requestExit with handler := none }

end Device

end HackRF.Streaming
