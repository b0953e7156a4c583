import HackRF.HandleTrace
import HackRF.LibraryCalls

/-!
# Looking through the USB devices

`hackrf_device_list` and `hackrf_open_usb` walk through the list of USB
devices which libusb reports and read serial numbers into a local array of 64
characters.  A device comes with what libusb answers about it.

The memory around the local array `serial_number` is a function of the index
into the array, so that accesses outside of the array have a meaning.  Both
functions also report the USB handles which they open and close, named by the
positions of their devices.
-/

namespace HackRF

def hackrfUsbVid : UInt16 := 0x1d50

def hackrfJawbreakerUsbPid : UInt16 := 0x604b

def hackrfOneUsbPid : UInt16 := 0x6089

def rad1oUsbPid : UInt16 := 0xcc15

abbrev usbMaxSerialLength : ℕ := 32

/-- `sizeof(serial_number)`. -/
abbrev serialNumberSize : ℕ := 64

/-! ## Devices -/

/-- How libusb answers the request for the serial number of a device: with a
string or with a negative error code. -/
inductive StringReply where
  | string (chars : List UInt8)
  | error (code : ℤ) (negative : code < 0)

/-- A USB device: its descriptor, whether `libusb_open` succeeds on it, and
how it answers the request for its serial number. -/
structure UsbDevice where
  idVendor : UInt16
  idProduct : UInt16
  iSerialNumber : UInt8
  opens : Bool
  serial : StringReply

namespace UsbDevice

def isHackrf (device : UsbDevice) : Bool :=
  device.idVendor == hackrfUsbVid &&
    (device.idProduct == hackrfOneUsbPid ||
      device.idProduct == hackrfJawbreakerUsbPid ||
      device.idProduct == rad1oUsbPid)

/-- The device has a serial number and can be asked for it. -/
def answers (device : UsbDevice) : Bool :=
  decide (0 < device.iSerialNumber) && device.opens

def serialRead (device : UsbDevice) : Option (List UInt8) :=
  if device.answers then
    match device.serial with
    | .string chars => some chars
    | .error _ _ => none
  else none

def unnumbered : UsbDevice where
  idVendor := hackrfUsbVid
  idProduct := hackrfOneUsbPid
  iSerialNumber := 0
  opens := true
  serial := .string []

def numbered (chars : List UInt8) : UsbDevice where
  idVendor := hackrfUsbVid
  idProduct := hackrfOneUsbPid
  iSerialNumber := 3
  opens := true
  serial := .string chars

/-- A HackRF One which answers the request with an input/output error. -/
def mute : UsbDevice where
  idVendor := hackrfUsbVid
  idProduct := hackrfOneUsbPid
  iSerialNumber := 3
  opens := true
  serial := .error (-1) (by decide)

end UsbDevice

def hackrfPositions (devices : List UsbDevice) : List ℕ :=
  devices.findIdxs UsbDevice.isHackrf

theorem hackrfPositions_concat (devices : List UsbDevice)
    (device : UsbDevice) :
    hackrfPositions (devices ++ [device]) =
      hackrfPositions devices ++
        if device.isHackrf then [devices.length] else [] := by
  unfold hackrfPositions
  rw [List.findIdxs_append, List.findIdxs_singleton, Nat.zero_add]

/-! ## Strings in memory -/

abbrev SerialMemory : Type := ℤ → UInt8

/-- `libusb_get_string_descriptor_ascii` into an array of `size` characters at
index 0: the string, cut so that a `NUL` fits behind it, and its length.  An
error leaves the array alone. -/
def getStringDescriptorAscii (size : ℕ) (reply : StringReply)
    (mem : SerialMemory) : ℤ × SerialMemory :=
  match reply with
  | .error code _ => (code, mem)
  | .string chars =>
      let length := min chars.length (size - 1)
      (length, fun i =>
        if 0 ≤ i ∧ i < length then chars.getD i.toNat 0
        else if i = length then 0
        else mem i)

theorem getStringDescriptorAscii_of_lt {size i : ℕ} {chars : List UInt8}
    (hi : i < min chars.length (size - 1)) (mem : SerialMemory) :
    (getStringDescriptorAscii size (.string chars) mem).2 i =
      chars.getD i 0 := by
  unfold getStringDescriptorAscii
  dsimp only
  rw [if_pos ⟨Int.natCast_nonneg i, by exact_mod_cast hi⟩, Int.toNat_natCast]

theorem map_range_getD {α : Type*} {xs : List α} {k n : ℕ}
    (hle : k + n ≤ xs.length) (default : α) :
    (List.range n).map (fun i => xs.getD (k + i) default) =
      (xs.take (k + n)).drop k := by
  apply List.ext_getElem
  · simp only [List.length_map, List.length_range, List.length_drop,
      List.length_take]
    omega
  · intro i hleft hright
    have hi : i < n := by simpa using hleft
    have hbound : k + i < xs.length := by omega
    rw [List.getElem_map, List.getElem_range, List.getElem_drop,
      List.getElem_take]
    simp [List.getElem?_eq_getElem hbound]

/-- The string in the array, up to the first `NUL`. -/
def cString (mem : SerialMemory) : List UInt8 :=
  ((List.range serialNumberSize).map fun i : ℕ => mem i).takeWhile (· ≠ 0)

/-! ## The device list -/

/-- What the allocators answer in `hackrf_device_list`: for the list with its
arrays, and for `strdup` at a device. -/
structure ListOutcomes where
  arrays : Bool
  strdup : ℕ → Bool

/-- `hackrf_device_list_t`, its arrays as functions of the index. -/
structure DeviceList where
  serialNumbers : ℕ → Option (List UInt8)
  usbBoardIds : ℕ → UInt16
  usbDeviceIndex : ℕ → ℕ
  devicecount : ℕ

/-- The list under construction, the local array and the USB handles opened
and closed so far. -/
structure DeviceScan where
  list : DeviceList
  serialNumber : SerialMemory
  handles : List (HandleTrace.Action ℕ)

namespace DeviceScan

/-- The list as `calloc` leaves it, and whatever the stack holds. -/
def initial (stack : SerialMemory) : DeviceScan where
  list := ⟨fun _ => none, fun _ => 0, fun _ => 0, 0⟩
  serialNumber := stack
  handles := []

variable (outs : ListOutcomes)

/-- `serial_number_length` in `hackrf_device_list`, an `uint8_t`. -/
def serialLength (returned : ℤ) : ℕ :=
  let length := (returned % 256).toNat
  if usbMaxSerialLength ≤ length then usbMaxSerialLength else length

def addDevice (i : ℕ) (device : UsbDevice) (scan : DeviceScan) : DeviceScan :=
  if device.isHackrf then
    let idx := scan.list.devicecount % 256
    let list := { scan.list with
      devicecount := scan.list.devicecount + 1
      usbBoardIds :=
        Function.update scan.list.usbBoardIds idx device.idProduct
      usbDeviceIndex := Function.update scan.list.usbDeviceIndex idx i }
    if 0 < device.iSerialNumber then
      if device.opens then
        let (returned, mem) := getStringDescriptorAscii serialNumberSize
          device.serial scan.serialNumber
        let mem := Function.update mem (serialLength returned) 0
        { list := { list with
            serialNumbers := Function.update list.serialNumbers idx
              (if outs.strdup i then some (cString mem) else none) }
          serialNumber := mem
          handles := scan.handles ++ [.acquire i, .release (some i)] }
      else { scan with list := list }
    else { scan with list := list }
  else scan

def addDevices : ℕ → List UsbDevice → DeviceScan → DeviceScan
  | _, [], scan => scan
  | i, device :: rest, scan =>
      addDevices (i + 1) rest (scan.addDevice outs i device)

end DeviceScan

/-- `hackrf_device_list`; `NULL` if an allocation fails. -/
def hackrfDeviceList (outs : ListOutcomes) (devices : List UsbDevice)
    (stack : SerialMemory) : Option DeviceList :=
  if outs.arrays then
    some ((DeviceScan.initial stack).addDevices outs 0 devices).list
  else none

/-- What libusb and the set-up answer when a USB device is opened. -/
structure UsbOpenOutcomes where
  opened : Bool
  setup : SetupOutcomes

/-- `hackrf_device_list_open` on a list which is not `NULL`. -/
def DeviceList.openAt (list : DeviceList) (idx : ℤ) (device : Bool)
    (usb : ℕ → UsbOpenOutcomes) (lib : Library) : OpenResult :=
  lib.hackrfDeviceListOpen ⟨true, list.devicecount, idx, device⟩
    (usb (list.usbDeviceIndex idx.toNat)).opened
    (usb (list.usbDeviceIndex idx.toNat)).setup

/-! ## Opening by serial number -/

/-- `strncmp` on the characters at an index and a string, for as many
characters as the string has: whether they are equal, and the indices that
are read. -/
def strncmp (mem : SerialMemory) : ℤ → List UInt8 → Bool × List ℤ
  | _, [] => (true, [])
  | index, char :: rest =>
      if mem index = char then
        let (equal, reads) := strncmp mem (index + 1) rest
        (equal, index :: reads)
      else (false, [index])

inductive UsbResource where
  | deviceList
  | handle (position : ℕ)
  deriving DecidableEq

/-- What `hackrf_open_usb` returns, the handle named by the position of its
device; the indices at which it accesses `serial_number`; and what it acquires
and releases. -/
structure OpenUsbResult where
  handle : Option ℕ
  accesses : List ℤ
  trace : List (HandleTrace.Action UsbResource)

/-- Reading and comparing the serial number of an opened device: whether it
matches, the accesses to the array, and the array afterwards. -/
def compareSerial (desired : List UInt8) (reply : StringReply)
    (mem : SerialMemory) : Bool × List ℤ × SerialMemory :=
  let (returned, mem) := getStringDescriptorAscii serialNumberSize reply mem
  let length : ℤ :=
    if (usbMaxSerialLength : ℤ) ≤ returned then usbMaxSerialLength
    else returned
  let mem := Function.update mem length 0
  let (equal, reads) := strncmp mem (length - desired.length) desired
  (equal, length :: reads, mem)

/-- The loop of `hackrf_open_usb` with a desired serial number. -/
def openUsbLoop (desired : List UInt8) :
    ℕ → List UsbDevice → SerialMemory → OpenUsbResult
  | _, [], _ => ⟨none, [], []⟩
  | i, device :: rest, mem =>
      if device.isHackrf && device.answers then
        let (equal, accesses, mem) := compareSerial desired device.serial mem
        if equal then ⟨some i, accesses, [.acquire (.handle i)]⟩
        else
          let result := openUsbLoop desired (i + 1) rest mem
          ⟨result.handle, accesses ++ result.accesses,
            .acquire (.handle i) :: .release (some (.handle i)) ::
              result.trace⟩
      else openUsbLoop desired (i + 1) rest mem

/-- The loop without one: the first HackRF is opened, if that succeeds. -/
def openUsbFirst : ℕ → List UsbDevice → OpenUsbResult
  | _, [] => ⟨none, [], []⟩
  | i, device :: rest =>
      if device.isHackrf then
        if device.opens then ⟨some i, [], [.acquire (.handle i)]⟩
        else ⟨none, [], []⟩
      else openUsbFirst (i + 1) rest

/-- `hackrf_open_usb`; a desired serial number is the characters before its
`NUL`. -/
def hackrfOpenUsb (desired : Option (List UInt8)) (devices : List UsbDevice)
    (stack : SerialMemory) : OpenUsbResult :=
  if ∃ chars ∈ desired, 32 < chars.length then
    ⟨none, [], [.acquire .deviceList]⟩
  else
    let result := match desired with
      | some chars => openUsbLoop chars 0 devices stack
      | none => openUsbFirst 0 devices
    { result with
      trace := .acquire .deviceList ::
        result.trace ++ [.release (some .deviceList)] }

end HackRF
