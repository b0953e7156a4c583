import HackRF.ByteMemory
import HackRF.FloatRounding
import HackRF.LibraryTypes

/-!
# Parameters and values in vendor requests

The functions of `hackrf.c` that send a parameter structure to the device, or
read a value from it, with one vendor request.  A structure is filled in the
memory of the host, in the host's byte order, and the request carries its
bytes; a value read from the device is written to the caller's memory byte by
byte.
-/

namespace HackRF

open ByteMemory FloatRounding

inductive VendorRequest where
  | max2837Read
  | sampleRateSet
  | basebandFilterBandwidthSet
  | rffc5071Read
  | setFreq
  | boardPartidSerialnoRead
  | setFreqExplicit
  | initSweep
  | operacakeGpioTest
  | cpldChecksum
  deriving DecidableEq, Repr

structure ControlOut where
  request : VendorRequest
  value : ℕ
  index : ℕ
  data : List UInt8
  deriving DecidableEq, Repr

structure ControlIn where
  request : VendorRequest
  value : ℕ
  index : ℕ
  length : ℕ
  deriving DecidableEq, Repr

inductive ControlReply where
  | failed (code : ℕ)
  | received (data : List UInt8)

/-- The result of `libusb_control_transfer`: the number of bytes moved, or a
negative error. -/
def ControlReply.result : ControlReply → ℤ
  | .failed code => -code - 1
  | .received data => data.length

/-- The answers of libusb during a call: to outgoing and incoming control
transfers, and to the request for the device descriptor, which has the API
version in `bcdDevice`. -/
structure Usb where
  send : ControlOut → ℤ
  fetch : ControlIn → ControlReply
  deviceDescriptor : Except ℤ ℕ

structure ControlState where
  lastLibusbError : ℤ
  sent : List ControlOut
  deriving DecidableEq, Repr

/-! ## Outgoing requests -/

/-- An outgoing request whose result is an error when `tooShort` holds. -/
def sendRequest (usb : Usb) (tooShort : ℤ → Bool) (transfer : ControlOut)
    (s : ControlState) : HackrfError × ControlState :=
  let result := usb.send transfer
  if tooShort result then
    (.libusb, { lastLibusbError := result, sent := s.sent ++ [transfer] })
  else (.success, { s with sent := s.sent ++ [transfer] })

theorem sendRequest_sent {usb : Usb} {tooShort : ℤ → Bool}
    {transfer : ControlOut} {s : ControlState} :
    (sendRequest usb tooShort transfer s).2.sent = s.sent ++ [transfer] := by
  simp only [sendRequest]
  split <;> rfl

def builtinBswap32 (value : ℕ) : ℕ := swap 4 (value % 2 ^ 32)

/-- The macro `TO_LE`: its argument where `HACKRF_BIG_ENDIAN` is not
defined. -/
def toLe (host : ByteOrder) (value : ℕ) : ℕ :=
  match host with
  | .little => value
  | .big => builtinBswap32 value

def freqOneMhz : ℕ := 1000 * 1000

def hackrfSetFreq (host : ByteOrder) (usb : Usb) (stack : Memory)
    (freqHz : UInt64) (s : ControlState) : HackrfError × ControlState :=
  let lFreqMhz := freqHz.toNat / freqOneMhz % 2 ^ 32
  let lFreqHz := (freqHz.toNat - lFreqMhz * freqOneMhz) % 2 ^ 32
  let setFreqParams :=
    store host 4 4 (toLe host lFreqHz)
      (store host 4 0 (toLe host lFreqMhz) stack)
  let length : ℕ := 8
  sendRequest usb (· < length)
    ⟨.setFreq, 0, 0, image length setFreqParams⟩ s

def rfPathFilterBypass : UInt32 := 0

/-- The structure takes 24 bytes: the last seven are padding and keep what the
stack held. -/
def hackrfSetFreqExplicit (host : ByteOrder) (usb : Usb) (stack : Memory)
    (ifFreqHz loFreqHz : UInt64) (path : UInt32) (s : ControlState) :
    HackrfError × ControlState :=
  if ifFreqHz < 2150000000 ∨ ifFreqHz > 2750000000 then (.invalidParam, s)
  else if path ≠ rfPathFilterBypass ∧
      (loFreqHz < 84375000 ∨ loFreqHz > 5400000000) then (.invalidParam, s)
  else if path > 2 then (.invalidParam, s)
  else
    let params :=
      store host 1 16 path.toNat
        (store host 8 8 (toLe host loFreqHz.toNat)
          (store host 8 0 (toLe host ifFreqHz.toNat) stack))
    let length : ℕ := 24
    sendRequest usb (· < length)
      ⟨.setFreqExplicit, 0, 0, image length params⟩ s

def max2837Ft : List ℕ :=
  [1750000, 2500000, 3500000, 5000000, 5500000, 6000000, 7000000, 8000000,
    9000000, 10000000, 12000000, 14000000, 15000000, 20000000, 24000000,
    28000000, 0]

def hackrfComputeBasebandFilterBw (bandwidthHz : ℕ) : ℕ :=
  let p := max2837Ft.findIdx fun bandwidth =>
    bandwidth == 0 || bandwidthHz ≤ bandwidth
  if p ≠ 0 ∧ max2837Ft.getD p 0 > bandwidthHz then max2837Ft.getD (p - 1) 0
  else max2837Ft.getD p 0

def hackrfSetBasebandFilterBandwidth (usb : Usb) (bandwidthHz : ℕ)
    (s : ControlState) : HackrfError × ControlState :=
  sendRequest usb (· ≠ 0)
    ⟨.basebandFilterBandwidthSet, bandwidthHz % 2 ^ 16, bandwidthHz / 2 ^ 16,
      []⟩ s

/-- `(uint32_t)(0.75*freq_hz/divider)` in double arithmetic.  Dividing by zero
gives an infinity or no number, and converting that is undefined. -/
def filterBandwidth (undefined : UInt32) (freqHz divider : UInt32) : ℕ :=
  if divider = 0 then undefined.toNat
  else ⌊fl 53 (fl 53 (3 / 4 * freqHz.toNat) / divider.toNat)⌋.toNat

def hackrfSetSampleRateManual (host : ByteOrder) (usb : Usb) (stack : Memory)
    (undefined : UInt32) (freqHz divider : UInt32) (s : ControlState) :
    HackrfError × ControlState :=
  let setFracrateParams :=
    store host 4 4 (toLe host divider.toNat)
      (store host 4 0 (toLe host freqHz.toNat) stack)
  let length : ℕ := 8
  match sendRequest usb (· < length)
      ⟨.sampleRateSet, 0, 0, image length setFracrateParams⟩ s with
  | (.success, s) =>
      hackrfSetBasebandFilterBandwidth usb
        (hackrfComputeBasebandFilterBw
          (filterBandwidth undefined freqHz divider)) s
  | failed => failed

/-! ## Incoming requests -/

structure CallerState where
  lastLibusbError : ℤ
  mem : Memory

/-- An incoming request for `transfer.length` bytes at an address, an error
below `least` bytes. -/
def fetchRequest (usb : Usb) (least : ℤ) (transfer : ControlIn) (addr : ℕ)
    (s : CallerState) : HackrfError × CallerState :=
  let reply := usb.fetch transfer
  let mem :=
    match reply with
    | .failed _ => s.mem
    | .received data => fill addr (data.take transfer.length) s.mem
  if reply.result < least then (.libusb, ⟨reply.result, mem⟩)
  else (.success, { s with mem := mem })

def hackrfUsbApiVersionRead (usb : Usb) (s : CallerState) :
    Except HackrfError ℕ × CallerState :=
  match usb.deviceDescriptor with
  | .ok bcdDevice => (.ok bcdDevice, s)
  | .error result => (.error .libusb, { s with lastLibusbError := result })

/-- The macro `USB_API_REQUIRED`; a version that cannot be read stays at
zero. -/
def usbApiRequired (usb : Usb) (version : ℕ)
    (call : CallerState → HackrfError × CallerState) (s : CallerState) :
    HackrfError × CallerState :=
  match hackrfUsbApiVersionRead usb s with
  | (.ok usbVersion, s) =>
      if usbVersion < version then (.usbApiVersion, s) else call s
  | (.error _, s) => if 0 < version then (.usbApiVersion, s) else call s

/-- `hackrf_max2837_read` and `hackrf_rffc5071_read`: they differ in the
request and in the number of registers. -/
def registerRead (request : VendorRequest) (registers : UInt8) (usb : Usb)
    (registerNumber : UInt8) (value : ℕ) (s : CallerState) :
    HackrfError × CallerState :=
  if registerNumber ≥ registers then (.invalidParam, s)
  else fetchRequest usb 2 ⟨request, 0, registerNumber.toNat, 2⟩ value s

def hackrfMax2837Read := registerRead .max2837Read 32

def hackrfRffc5071Read := registerRead .rffc5071Read 31

def hackrfOperacakeGpioTest (usb : Usb) (address : UInt8) (testResult : ℕ) :
    CallerState → HackrfError × CallerState :=
  usbApiRequired usb 0x0103
    (fetchRequest usb 1 ⟨.operacakeGpioTest, address.toNat, 0, 2⟩ testResult)

/-- `x = TO_LE(x)` for the 32-bit integer at an address. -/
def correctWord (host : ByteOrder) (addr : ℕ) (mem : Memory) : Memory :=
  store host 4 addr (toLe host (load host 4 addr mem)) mem

/-- The structure has the two words of `part_id` and the four of `serial_no`;
they are corrected in this order. -/
def correctWords (host : ByteOrder) (addr : ℕ) (count : ℕ) (mem : Memory) :
    Memory :=
  (List.range count).foldl (fun mem k => correctWord host (addr + 4 * k) mem)
    mem

def hackrfBoardPartidSerialnoRead (host : ByteOrder) (usb : Usb)
    (readPartidSerialno : ℕ) (s : CallerState) : HackrfError × CallerState :=
  let length : ℕ := 24
  match fetchRequest usb length ⟨.boardPartidSerialnoRead, 0, 0, length⟩
      readPartidSerialno s with
  | (.success, s) =>
      (.success,
        { s with mem := correctWords host readPartidSerialno 6 s.mem })
  | failed => failed

def hackrfCpldChecksum (host : ByteOrder) (usb : Usb) (crc : ℕ) :
    CallerState → HackrfError × CallerState :=
  usbApiRequired usb 0x0103 fun s =>
    match fetchRequest usb 4 ⟨.cpldChecksum, 0, 0, 4⟩ crc s with
    | (.success, s) =>
        (.success, { s with mem := correctWord host crc s.mem })
    | failed => failed

end HackRF
