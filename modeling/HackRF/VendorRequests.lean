import HackRF.InitSweep

/-!
# Every request of the library

All functions of `hackrf.c` that make a control transfer on an opened device,
with the record of what they ask of libusb: the reads of the device
descriptor made by `USB_API_REQUIRED` and the control transfers, each with its
result.  The functions which fill a parameter structure are the ones of the
modules before, with their requests put into the record; those which read
from the device are given here with the record and agree with the earlier
ones on everything else.
-/

namespace HackRF

open ByteMemory

inductive HackrfVendorRequest where
  | setTransceiverMode
  | max2837Write
  | max2837Read
  | si5351cWrite
  | si5351cRead
  | sampleRateSet
  | basebandFilterBandwidthSet
  | rffc5071Write
  | rffc5071Read
  | spiflashErase
  | spiflashWrite
  | spiflashRead
  | boardIdRead
  | versionStringRead
  | setFreq
  | ampEnable
  | boardPartidSerialnoRead
  | setLnaGain
  | setVgaGain
  | setTxvgaGain
  | antennaEnable
  | setFreqExplicit
  | usbWcidVendorReq
  | initSweep
  | operacakeGetBoards
  | operacakeSetPorts
  | setHwSyncMode
  | reset
  | operacakeSetRanges
  | clkoutEnable
  | spiflashStatus
  | spiflashClearStatus
  | operacakeGpioTest
  | cpldChecksum
  deriving DecidableEq, Repr

def HackrfVendorRequest.code : HackrfVendorRequest → ℕ
  | .setTransceiverMode => 1
  | .max2837Write => 2
  | .max2837Read => 3
  | .si5351cWrite => 4
  | .si5351cRead => 5
  | .sampleRateSet => 6
  | .basebandFilterBandwidthSet => 7
  | .rffc5071Write => 8
  | .rffc5071Read => 9
  | .spiflashErase => 10
  | .spiflashWrite => 11
  | .spiflashRead => 12
  | .boardIdRead => 14
  | .versionStringRead => 15
  | .setFreq => 16
  | .ampEnable => 17
  | .boardPartidSerialnoRead => 18
  | .setLnaGain => 19
  | .setVgaGain => 20
  | .setTxvgaGain => 21
  | .antennaEnable => 23
  | .setFreqExplicit => 24
  | .usbWcidVendorReq => 25
  | .initSweep => 26
  | .operacakeGetBoards => 27
  | .operacakeSetPorts => 28
  | .setHwSyncMode => 29
  | .reset => 30
  | .operacakeSetRanges => 31
  | .clkoutEnable => 32
  | .spiflashStatus => 33
  | .spiflashClearStatus => 34
  | .operacakeGpioTest => 35
  | .cpldChecksum => 36

def VendorRequest.hackrf : VendorRequest → HackrfVendorRequest
  | .max2837Read => .max2837Read
  | .sampleRateSet => .sampleRateSet
  | .basebandFilterBandwidthSet => .basebandFilterBandwidthSet
  | .rffc5071Read => .rffc5071Read
  | .setFreq => .setFreq
  | .boardPartidSerialnoRead => .boardPartidSerialnoRead
  | .setFreqExplicit => .setFreqExplicit
  | .initSweep => .initSweep
  | .operacakeGpioTest => .operacakeGpioTest
  | .cpldChecksum => .cpldChecksum

def TransceiverMode.code : TransceiverMode → ℕ
  | .off => 0
  | .receive => 1
  | .transmit => 2
  | .ss => 3
  | .cpldUpdate => 4

/-- The data stage of a control transfer: none, bytes for the device, or room
for bytes from it. -/
inductive DataStage where
  | none
  | out (data : List UInt8)
  | into (length : ℕ)
  deriving DecidableEq, Repr

structure ControlTransfer where
  request : HackrfVendorRequest
  value : ℕ
  index : ℕ
  stage : DataStage
  deriving DecidableEq, Repr

/-- What a call asks of libusb, with the answer. -/
inductive BusEvent where
  | descriptor (answer : Except ℤ ℕ)
  | control (transfer : ControlTransfer) (result : ℤ)

/-- The answers of libusb during a call. -/
structure Bus where
  send : ControlTransfer → ℤ
  fetch : ControlTransfer → ControlReply
  deviceDescriptor : Except ℤ ℕ

structure BusState where
  lastLibusbError : ℤ
  mem : Memory
  trace : List BusEvent

abbrev BusCall := BusState → HackrfError × BusState

def BusState.log (event : BusEvent) (s : BusState) : BusState :=
  { s with trace := s.trace ++ [event] }

def BusState.fail (result : ℤ) (s : BusState) : BusState :=
  { s with lastLibusbError := result }

def BusState.fill (addr : ℕ) (data : List UInt8) (s : BusState) : BusState :=
  { s with mem := ByteMemory.fill addr data s.mem }

/-- The bytes of a reply, no more than there was room for, at an address. -/
def BusState.receive (addr length : ℕ) (reply : ControlReply) (s : BusState) :
    BusState :=
  match reply with
  | .failed _ => s
  | .received data => s.fill addr (data.take length)

section Fields

variable (s : BusState) (event : BusEvent) (result : ℤ) (addr length : ℕ)
  (data : List UInt8) (reply : ControlReply)

@[simp] theorem BusState.log_trace :
    (s.log event).trace = s.trace ++ [event] := rfl

@[simp] theorem BusState.log_lastLibusbError :
    (s.log event).lastLibusbError = s.lastLibusbError := rfl

@[simp] theorem BusState.log_mem : (s.log event).mem = s.mem := rfl

@[simp] theorem BusState.fail_trace : (s.fail result).trace = s.trace := rfl

@[simp] theorem BusState.fail_lastLibusbError :
    (s.fail result).lastLibusbError = result := rfl

@[simp] theorem BusState.fail_mem : (s.fail result).mem = s.mem := rfl

@[simp] theorem BusState.fill_trace : (s.fill addr data).trace = s.trace := rfl

@[simp] theorem BusState.fill_lastLibusbError :
    (s.fill addr data).lastLibusbError = s.lastLibusbError := rfl

@[simp] theorem BusState.receive_trace :
    (s.receive addr length reply).trace = s.trace := by
  cases reply <;> rfl

@[simp] theorem BusState.receive_lastLibusbError :
    (s.receive addr length reply).lastLibusbError = s.lastLibusbError := by
  cases reply <;> rfl

end Fields

/-- The answers as the functions of the modules before ask for them. -/
def ControlOut.transfer (t : ControlOut) : ControlTransfer where
  request := t.request.hackrf
  value := t.value
  index := t.index
  stage := if t.data = [] then .none else .out t.data

def ControlIn.transfer (t : ControlIn) : ControlTransfer where
  request := t.request.hackrf
  value := t.value
  index := t.index
  stage := .into t.length

namespace Bus

variable (bus : Bus)

def usb : Usb where
  send := fun t => bus.send t.transfer
  fetch := fun t => bus.fetch t.transfer
  deviceDescriptor := bus.deviceDescriptor

/-! ## Control transfers -/

/-- An outgoing transfer whose result is an error when `tooShort` holds. -/
def sendOut (tooShort : ℤ → Bool) (transfer : ControlTransfer) : BusCall :=
  fun s =>
    let result := bus.send transfer
    let s := s.log (.control transfer result)
    if tooShort result then (.libusb, s.fail result) else (.success, s)

/-- A request without data. -/
def command (request : HackrfVendorRequest) (value index : ℕ) : BusCall :=
  bus.sendOut (· ≠ 0) ⟨request, value, index, .none⟩

/-- An incoming transfer of at most `length` bytes, an error below `least`
bytes. -/
def fetchInto (request : HackrfVendorRequest) (value index length : ℕ)
    (least : ℤ) (addr : ℕ) : BusCall :=
  fun s =>
    let transfer : ControlTransfer := ⟨request, value, index, .into length⟩
    let reply := bus.fetch transfer
    let s := (s.log (.control transfer reply.result)).receive addr length reply
    if reply.result < least then (.libusb, s.fail reply.result)
    else (.success, s)

def hackrfUsbApiVersionRead (s : BusState) :
    Except HackrfError ℕ × BusState :=
  let s := s.log (.descriptor bus.deviceDescriptor)
  match bus.deviceDescriptor with
  | .ok bcdDevice => (.ok bcdDevice, s)
  | .error result => (.error .libusb, s.fail result)

/-- The macro `USB_API_REQUIRED`. -/
def usbApiRequired (version : ℕ) (call : BusCall) : BusCall := fun s =>
  match bus.hackrfUsbApiVersionRead s with
  | (.ok usbVersion, s) =>
      if usbVersion < version then (.usbApiVersion, s) else call s
  | (.error _, s) => if 0 < version then (.usbApiVersion, s) else call s

/-- A call of the modules before, with the transfers it sends put into the
record. -/
def lift (call : Usb → ControlState → HackrfError × ControlState) : BusCall :=
  fun s =>
    let (code, after) := call bus.usb ⟨s.lastLibusbError, []⟩
    (code, {
      s with
      lastLibusbError := after.lastLibusbError
      trace := s.trace ++ after.sent.map fun t =>
        .control t.transfer (bus.usb.send t) })

/-! ## Settings -/

def hackrfSetTransceiverMode (value : TransceiverMode) : BusCall :=
  bus.command .setTransceiverMode value.code 0

def hackrfSetBasebandFilterBandwidth (bandwidthHz : UInt32) : BusCall :=
  bus.lift fun usb => HackRF.hackrfSetBasebandFilterBandwidth usb
    bandwidthHz.toNat

def hackrfSetAmpEnable (value : UInt8) : BusCall :=
  bus.command .ampEnable value.toNat 0

def hackrfSetAntennaEnable (value : UInt8) : BusCall :=
  bus.command .antennaEnable value.toNat 0

/-- `hackrf_set_lna_gain`, `hackrf_set_vga_gain` and `hackrf_set_txvga_gain`:
they differ in the request, in the largest gain and in how the gain is rounded
to a step.  Any failure is reported as an invalid parameter. -/
def setGain (request : HackrfVendorRequest) (largest : UInt32)
    (round : UInt32 → UInt32) (value : UInt32) : BusCall := fun s =>
  if value > largest then (.invalidParam, s)
  else
    let transfer : ControlTransfer :=
      ⟨request, 0, (round value).toNat, .into 1⟩
    let reply := bus.fetch transfer
    let s := s.log (.control transfer reply.result)
    match reply with
    | .received [retval] =>
        if retval = 0 then (.invalidParam, s) else (.success, s)
    | _ => (.invalidParam, s)

def hackrfSetLnaGain := bus.setGain .setLnaGain 40 (· &&& ~~~0x07)

def hackrfSetVgaGain := bus.setGain .setVgaGain 62 (· &&& ~~~0x01)

def hackrfSetTxvgaGain := bus.setGain .setTxvgaGain 47 id

def hackrfSetFreq (host : ByteOrder) (stack : Memory) (freqHz : UInt64) :
    BusCall :=
  bus.lift fun usb => HackRF.hackrfSetFreq host usb stack freqHz

def hackrfSetFreqExplicit (host : ByteOrder) (stack : Memory)
    (ifFreqHz loFreqHz : UInt64) (path : UInt32) : BusCall :=
  bus.lift fun usb =>
    HackRF.hackrfSetFreqExplicit host usb stack ifFreqHz loFreqHz path

def hackrfSetSampleRateManual (host : ByteOrder) (stack : Memory)
    (undefined freqHz divider : UInt32) : BusCall :=
  bus.lift fun usb =>
    HackRF.hackrfSetSampleRateManual host usb stack undefined freqHz divider

/-- The read of the descriptor in `USB_API_REQUIRED` is put into the record
first. -/
def hackrfInitSweep (stack : Memory) (args : Sweep.InitSweepArgs) : BusCall :=
  fun s =>
    bus.lift (fun usb => Sweep.hackrfInitSweep usb stack args)
      (s.log (.descriptor bus.deviceDescriptor))

def hackrfSetHwSyncMode (value : UInt8) : BusCall :=
  bus.usbApiRequired 0x0102 (bus.command .setHwSyncMode value.toNat 0)

def hackrfReset : BusCall :=
  bus.usbApiRequired 0x0102 (bus.command .reset 0 0)

def hackrfSetClkoutEnable (value : UInt8) : BusCall :=
  bus.usbApiRequired 0x0103 (bus.command .clkoutEnable value.toNat 0)

/-! ## Registers -/

/-- `hackrf_max2837_write` and `hackrf_si5351c_write`: they differ in the
request, in the number of registers and in the largest value. -/
def registerWrite (request : HackrfVendorRequest) (registers values : ℕ)
    (registerNumber value : ℕ) : BusCall := fun s =>
  if registerNumber ≥ registers then (.invalidParam, s)
  else if value ≥ values then (.invalidParam, s)
  else bus.command request value registerNumber s

def hackrfMax2837Write (registerNumber : UInt8) (value : UInt16) : BusCall :=
  bus.registerWrite .max2837Write 32 0x400 registerNumber.toNat value.toNat

def hackrfSi5351cWrite (registerNumber value : UInt16) : BusCall :=
  bus.registerWrite .si5351cWrite 256 256 registerNumber.toNat value.toNat

/-- Every 16-bit value is accepted. -/
def hackrfRffc5071Write (registerNumber : UInt8) (value : UInt16) : BusCall :=
  fun s =>
    if registerNumber ≥ 31 then (.invalidParam, s)
    else bus.command .rffc5071Write value.toNat registerNumber.toNat s

def registerRead (request : HackrfVendorRequest) (registers : UInt8)
    (registerNumber : UInt8) (value : ℕ) : BusCall := fun s =>
  if registerNumber ≥ registers then (.invalidParam, s)
  else bus.fetchInto request 0 registerNumber.toNat 2 2 value s

def hackrfMax2837Read := bus.registerRead .max2837Read 32

def hackrfRffc5071Read := bus.registerRead .rffc5071Read 31

/-- The byte is read into a local and widened. -/
def hackrfSi5351cRead (host : ByteOrder) (registerNumber : UInt16)
    (value : ℕ) : BusCall := fun s =>
  if registerNumber ≥ 256 then (.invalidParam, s)
  else
    let transfer : ControlTransfer :=
      ⟨.si5351cRead, 0, registerNumber.toNat, .into 1⟩
    let reply := bus.fetch transfer
    let s := s.log (.control transfer reply.result)
    match reply with
    | .received (tempValue :: _) =>
        (.success, { s with mem := store host 2 value tempValue.toNat s.mem })
    | _ => (.libusb, s.fail reply.result)

/-! ## Flash memory -/

def hackrfSpiflashErase : BusCall := bus.command .spiflashErase 0 0

def hackrfSpiflashWrite (address : UInt32) (length : UInt16) (data : ℕ) :
    BusCall := fun s =>
  if address > 0x0FFFFF then (.invalidParam, s)
  else
    bus.sendOut (· < length.toNat)
      ⟨.spiflashWrite, (address >>> 16).toNat, (address &&& 0xFFFF).toNat,
        .out (image length.toNat fun k => s.mem (data + k))⟩ s

def hackrfSpiflashRead (address : UInt32) (length : UInt16) (data : ℕ) :
    BusCall := fun s =>
  if address > 0x0FFFFF then (.invalidParam, s)
  else
    bus.fetchInto .spiflashRead (address >>> 16).toNat
      (address &&& 0xFFFF).toNat length.toNat length.toNat data s

def hackrfSpiflashStatus (data : ℕ) : BusCall :=
  bus.usbApiRequired 0x0103 (bus.fetchInto .spiflashStatus 0 0 2 1 data)

def hackrfSpiflashClearStatus : BusCall :=
  bus.usbApiRequired 0x0103 (bus.command .spiflashClearStatus 0 0)

/-! ## The board -/

def hackrfBoardIdRead (value : ℕ) : BusCall :=
  bus.fetchInto .boardIdRead 0 0 1 1 value

/-- The terminating zero goes behind the bytes received. -/
def hackrfVersionStringRead (version : ℕ) (length : UInt8) : BusCall :=
  fun s =>
    match bus.fetchInto .versionStringRead 0 0 length.toNat 0 version s with
    | (.success, s) =>
        let result :=
          (bus.fetch ⟨.versionStringRead, 0, 0, .into length.toNat⟩).result
        (.success, s.fill (version + result.toNat) [0])
    | failed => failed

def hackrfBoardPartidSerialnoRead (host : ByteOrder)
    (readPartidSerialno : ℕ) : BusCall := fun s =>
  match bus.fetchInto .boardPartidSerialnoRead 0 0 24 24 readPartidSerialno s
    with
  | (.success, s) =>
      (.success,
        { s with mem := correctWords host readPartidSerialno 6 s.mem })
  | failed => failed

def hackrfCpldChecksum (host : ByteOrder) (crc : ℕ) : BusCall :=
  bus.usbApiRequired 0x0103 fun s =>
    match bus.fetchInto .cpldChecksum 0 0 4 4 crc s with
    | (.success, s) => (.success, { s with mem := correctWord host crc s.mem })
    | failed => failed

/-! ## Operacake -/

def hackrfGetOperacakeBoards (boards : ℕ) : BusCall :=
  bus.usbApiRequired 0x0102 (bus.fetchInto .operacakeGetBoards 0 0 8 8 boards)

def operacakePa4 : UInt8 := 3

def operacakePb4 : UInt8 := 7

def hackrfSetOperacakePorts (address portA portB : UInt8) : BusCall :=
  bus.usbApiRequired 0x0102 fun s =>
    if portA > operacakePb4 ∨ portB > operacakePb4 then (.invalidParam, s)
    else if (portA ≤ operacakePa4 ∧ portB ≤ operacakePa4) ∨
        (portA > operacakePa4 ∧ portB > operacakePa4) then (.invalidParam, s)
    else
      bus.command .operacakeSetPorts address.toNat
        (portA.toNat ||| portB.toNat <<< 8) s

def hackrfSetOperacakeRanges (ranges : ℕ) (lenRanges : UInt8) : BusCall :=
  bus.usbApiRequired 0x0103 fun s =>
    bus.sendOut (· < lenRanges.toNat)
      ⟨.operacakeSetRanges, 0, 0,
        .out (image lenRanges.toNat fun k => s.mem (ranges + k))⟩ s

def hackrfOperacakeGpioTest (address : UInt8) (testResult : ℕ) : BusCall :=
  bus.usbApiRequired 0x0103
    (bus.fetchInto .operacakeGpioTest address.toNat 0 2 1 testResult)

end Bus

/-! ## A call by name -/

/-- A call of one of the functions above; addresses stand for pointers. -/
inductive ApiRequest where
  | setTransceiverMode (value : TransceiverMode)
  | setBasebandFilterBandwidth (bandwidthHz : UInt32)
  | setAmpEnable (value : UInt8)
  | setAntennaEnable (value : UInt8)
  | setLnaGain (value : UInt32)
  | setVgaGain (value : UInt32)
  | setTxvgaGain (value : UInt32)
  | setFreq (freqHz : UInt64)
  | setFreqExplicit (ifFreqHz loFreqHz : UInt64) (path : UInt32)
  | setSampleRateManual (freqHz divider : UInt32)
  | initSweep (args : Sweep.InitSweepArgs)
  | setHwSyncMode (value : UInt8)
  | reset
  | setClkoutEnable (value : UInt8)
  | max2837Write (registerNumber : UInt8) (value : UInt16)
  | si5351cWrite (registerNumber value : UInt16)
  | rffc5071Write (registerNumber : UInt8) (value : UInt16)
  | max2837Read (registerNumber : UInt8) (value : ℕ)
  | si5351cRead (registerNumber : UInt16) (value : ℕ)
  | rffc5071Read (registerNumber : UInt8) (value : ℕ)
  | spiflashErase
  | spiflashWrite (address : UInt32) (length : UInt16) (data : ℕ)
  | spiflashRead (address : UInt32) (length : UInt16) (data : ℕ)
  | spiflashStatus (data : ℕ)
  | spiflashClearStatus
  | boardIdRead (value : ℕ)
  | versionStringRead (version : ℕ) (length : UInt8)
  | boardPartidSerialnoRead (readPartidSerialno : ℕ)
  | cpldChecksum (crc : ℕ)
  | getOperacakeBoards (boards : ℕ)
  | setOperacakePorts (address portA portB : UInt8)
  | setOperacakeRanges (ranges : ℕ) (lenRanges : UInt8)
  | operacakeGpioTest (address : UInt8) (testResult : ℕ)

/-- What a call depends on besides its arguments: the byte order of the host,
what the stack holds where the call has its locals, and what a conversion
without a defined result yields. -/
structure Host where
  order : ByteOrder
  stack : Memory
  undefined : UInt32

def ApiRequest.run (host : Host) (bus : Bus) : ApiRequest → BusCall
  | .setTransceiverMode value => bus.hackrfSetTransceiverMode value
  | .setBasebandFilterBandwidth bandwidthHz =>
      bus.hackrfSetBasebandFilterBandwidth bandwidthHz
  | .setAmpEnable value => bus.hackrfSetAmpEnable value
  | .setAntennaEnable value => bus.hackrfSetAntennaEnable value
  | .setLnaGain value => bus.hackrfSetLnaGain value
  | .setVgaGain value => bus.hackrfSetVgaGain value
  | .setTxvgaGain value => bus.hackrfSetTxvgaGain value
  | .setFreq freqHz => bus.hackrfSetFreq host.order host.stack freqHz
  | .setFreqExplicit ifFreqHz loFreqHz path =>
      bus.hackrfSetFreqExplicit host.order host.stack ifFreqHz loFreqHz path
  | .setSampleRateManual freqHz divider =>
      bus.hackrfSetSampleRateManual host.order host.stack host.undefined
        freqHz divider
  | .initSweep args => bus.hackrfInitSweep host.stack args
  | .setHwSyncMode value => bus.hackrfSetHwSyncMode value
  | .reset => bus.hackrfReset
  | .setClkoutEnable value => bus.hackrfSetClkoutEnable value
  | .max2837Write registerNumber value =>
      bus.hackrfMax2837Write registerNumber value
  | .si5351cWrite registerNumber value =>
      bus.hackrfSi5351cWrite registerNumber value
  | .rffc5071Write registerNumber value =>
      bus.hackrfRffc5071Write registerNumber value
  | .max2837Read registerNumber value =>
      bus.hackrfMax2837Read registerNumber value
  | .si5351cRead registerNumber value =>
      bus.hackrfSi5351cRead host.order registerNumber value
  | .rffc5071Read registerNumber value =>
      bus.hackrfRffc5071Read registerNumber value
  | .spiflashErase => bus.hackrfSpiflashErase
  | .spiflashWrite address length data =>
      bus.hackrfSpiflashWrite address length data
  | .spiflashRead address length data =>
      bus.hackrfSpiflashRead address length data
  | .spiflashStatus data => bus.hackrfSpiflashStatus data
  | .spiflashClearStatus => bus.hackrfSpiflashClearStatus
  | .boardIdRead value => bus.hackrfBoardIdRead value
  | .versionStringRead version length =>
      bus.hackrfVersionStringRead version length
  | .boardPartidSerialnoRead readPartidSerialno =>
      bus.hackrfBoardPartidSerialnoRead host.order readPartidSerialno
  | .cpldChecksum crc => bus.hackrfCpldChecksum host.order crc
  | .getOperacakeBoards boards => bus.hackrfGetOperacakeBoards boards
  | .setOperacakePorts address portA portB =>
      bus.hackrfSetOperacakePorts address portA portB
  | .setOperacakeRanges ranges lenRanges =>
      bus.hackrfSetOperacakeRanges ranges lenRanges
  | .operacakeGpioTest address testResult =>
      bus.hackrfOperacakeGpioTest address testResult

/-! ## The reading calls without the record -/

def BusState.caller (s : BusState) : CallerState where
  lastLibusbError := s.lastLibusbError
  mem := s.mem

/-- The call does what another does which keeps no record. -/
def BusCall.Refines (call : BusCall)
    (plain : CallerState → HackrfError × CallerState) : Prop :=
  ∀ s, ((call s).1, (call s).2.caller) = plain s.caller

section Refines

variable {bus : Bus} {call : BusCall}
  {plain : CallerState → HackrfError × CallerState}

theorem fetchInto_refines (request : VendorRequest)
    {value index length : ℕ} {least : ℤ} {addr : ℕ} :
    BusCall.Refines
      (bus.fetchInto request.hackrf value index length least addr)
      (fetchRequest bus.usb least ⟨request, value, index, length⟩ addr) := by
  intro s
  cases hreply : bus.fetch ⟨request.hackrf, value, index, .into length⟩ with
  | failed code =>
      simp only [Bus.fetchInto, fetchRequest, Bus.usb, ControlIn.transfer,
        hreply, ControlReply.result]
      split_ifs <;> rfl
  | received data =>
      simp only [Bus.fetchInto, fetchRequest, Bus.usb, ControlIn.transfer,
        hreply, ControlReply.result]
      split_ifs <;> rfl

theorem if_refines {p : Prop} [Decidable p] {code : HackrfError}
    (hcall : BusCall.Refines call plain) :
    BusCall.Refines (fun s => if p then (code, s) else call s)
      fun s => if p then (code, s) else plain s := by
  intro s
  dsimp only
  split_ifs
  · rfl
  · exact hcall s

theorem usbApiRequired_refines {version : ℕ}
    (hcall : BusCall.Refines call plain) :
    BusCall.Refines (bus.usbApiRequired version call)
      (HackRF.usbApiRequired bus.usb version plain) := by
  intro s
  simp only [Bus.usbApiRequired, Bus.hackrfUsbApiVersionRead,
    HackRF.usbApiRequired, HackRF.hackrfUsbApiVersionRead, Bus.usb]
  cases bus.deviceDescriptor with
  | ok usbVersion =>
      dsimp only
      split_ifs
      · rfl
      · exact hcall (s.log (.descriptor (.ok usbVersion)))
  | error result =>
      dsimp only
      split_ifs
      · rfl
      · exact hcall ((s.log (.descriptor (.error result))).fail result)

theorem update_refines {update : Memory → Memory}
    (hcall : BusCall.Refines call plain) :
    BusCall.Refines
      (fun s => match call s with
        | (.success, s) => (.success, { s with mem := update s.mem })
        | failed => failed)
      fun s => match plain s with
        | (.success, s) => (.success, { s with mem := update s.mem })
        | failed => failed := by
  intro s
  dsimp only
  rw [← hcall s]
  cases call s with
  | mk code after => cases code <;> rfl

end Refines

/-- The call which reads a value to an address. -/
def ReadCall.apiRequest (addr : ℕ) : ReadCall → ApiRequest
  | .max2837Read registerNumber _ => .max2837Read registerNumber addr
  | .rffc5071Read registerNumber _ => .rffc5071Read registerNumber addr
  | .operacakeGpioTest address _ => .operacakeGpioTest address addr
  | .boardPartidSerialnoRead _ _ => .boardPartidSerialnoRead addr
  | .cpldChecksum _ => .cpldChecksum addr

theorem ReadCall.apiRequest_refines (host : Host) (bus : Bus) (addr : ℕ)
    (call : ReadCall) :
    BusCall.Refines ((call.apiRequest addr).run host bus)
      (call.run host.order bus.usb addr) := by
  cases call with
  | max2837Read registerNumber value =>
      exact if_refines (fetchInto_refines .max2837Read)
  | rffc5071Read registerNumber value =>
      exact if_refines (fetchInto_refines .rffc5071Read)
  | operacakeGpioTest address testResult =>
      exact usbApiRequired_refines (fetchInto_refines .operacakeGpioTest)
  | boardPartidSerialnoRead partId serialNo =>
      exact update_refines (fetchInto_refines .boardPartidSerialnoRead)
  | cpldChecksum crc =>
      exact usbApiRequired_refines
        (update_refines (fetchInto_refines .cpldChecksum))

end HackRF
