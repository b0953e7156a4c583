import HackRF.StreamingDevice

/-!
# Opening and closing devices

The functions of `hackrf.c` which work on the two globals `g_libusb_context`
and `open_devices`: initialisation, the open functions with the set-up they
share, `hackrf_close` and `hackrf_exit`.  What libusb and the allocator answer
is an input.

The open functions also report which resources they acquire and release, in
order.
-/

namespace HackRF

/-! ## Kernel drivers and configuration -/

/-- What libusb answers for one interface in `detach_kernel_drivers`. -/
inductive DriverOutcome where
  | queryFailed
  | notSupported
  | inactive
  | detached
  | detachFailed
  deriving DecidableEq, Repr

/-- What libusb answers in `detach_kernel_drivers`: whether the configuration
descriptor could be read, and the interfaces it has. -/
structure DetachOutcomes where
  descriptor : Bool
  interfaces : List DriverOutcome

def detachLoop : List DriverOutcome → HackrfError
  | [] => .success
  | .queryFailed :: _ => .libusb
  | .notSupported :: _ => .success
  | .inactive :: rest => detachLoop rest
  | .detached :: rest => detachLoop rest
  | .detachFailed :: _ => .libusb

def detachKernelDrivers (outs : DetachOutcomes) : HackrfError :=
  if outs.descriptor then detachLoop outs.interfaces else .libusb

/-- What libusb answers in `set_hackrf_configuration`; `current` is `none` if
the configuration cannot be read. -/
structure ConfigurationOutcomes where
  current : Option ℕ
  detachBefore : DetachOutcomes
  setConfiguration : Bool
  detachAfter : DetachOutcomes

def usbConfigStandard : ℕ := 1

def setHackrfConfiguration (config : ℕ) (outs : ConfigurationOutcomes) :
    HackrfError :=
  match outs.current with
  | none => .libusb
  | some current =>
      if current ≠ config then
        match detachKernelDrivers outs.detachBefore with
        | .success =>
            if outs.setConfiguration then detachKernelDrivers outs.detachAfter
            else .libusb
        | code => code
      else detachKernelDrivers outs.detachAfter

/-! ## Device records -/

inductive Resource where
  | usbHandle
  | interface
  | record
  | transferArray
  | transfer (index : TransferIndex)
  deriving DecidableEq

inductive ResourceEvent where
  | acquire (resource : Resource)
  | release (resource : Resource)
  deriving DecidableEq

/-- What the allocators answer in `allocate_transfers`. -/
structure AllocateOutcomes where
  array : Bool
  transfer : TransferIndex → Bool

/-- The loop of `allocate_transfers` over the remaining indices.  A transfer's
buffer lies inside the device record, so it is never `NULL`. -/
def allocateLoop (outs : AllocateOutcomes) :
    List TransferIndex → HackrfError × List ResourceEvent
  | [] => (.success, [])
  | index :: rest =>
      if outs.transfer index then
        let (code, events) := allocateLoop outs rest
        (code, .acquire (.transfer index) :: events)
      else (.libusb, [])

/-- `allocate_transfers`; `hasTransfers` says that `device->transfers` is not
`NULL`. -/
def allocateTransfers (hasTransfers : Bool) (outs : AllocateOutcomes) :
    HackrfError × List ResourceEvent :=
  if hasTransfers then (.busy, [])
  else if outs.array then
    let (code, events) := allocateLoop outs (List.finRange transferCount)
    (code, .acquire .transferArray :: events)
  else (.noMem, [])

/-! ## The library -/

abbrev DeviceHandle := ℕ

/-- The globals of the library, and the device pointers which it has handed
out and not taken back by `hackrf_close`. -/
structure Library where
  context : Bool
  openDevices : ℕ
  handles : List DeviceHandle
  nextHandle : DeviceHandle
  deriving DecidableEq

def openDevicesRange : ℕ := 2 ^ 16

/-- What an open function returns, what it stores through `device`, and which
resources it acquired and released on the way. -/
structure OpenResult where
  code : HackrfError
  device : Option DeviceHandle
  events : List ResourceEvent
  library : Library

structure SetupOutcomes where
  configuration : ConfigurationOutcomes
  claim : Bool
  record : Bool
  transfers : AllocateOutcomes

/-- The product ids `hackrf_open` looks for. -/
inductive UsbProduct where
  | hackrfOne
  | jawbreaker
  | rad1o
  deriving DecidableEq

structure OpenOutcomes where
  openWithVidPid : UsbProduct → Bool
  setup : SetupOutcomes

/-- The arguments of `hackrf_device_list_open`, the pointers as whether they
are not `NULL`. -/
structure DeviceListOpenCall where
  list : Bool
  devicecount : ℤ
  idx : ℤ
  device : Bool

namespace Library

def initial : Library where
  context := false
  openDevices := 0
  handles := []
  nextHandle := 0

def hackrfInit (libusbInit : Bool) (lib : Library) : HackrfError × Library :=
  if lib.context then (.success, lib)
  else if libusbInit then (.success, { lib with context := true })
  else (.libusb, lib)

def hackrfExit (lib : Library) : HackrfError × Library :=
  if lib.openDevices = 0 then (.success, { lib with context := false })
  else (.notLastDevice, lib)

/-- `*device = lib_device; open_devices++`. -/
def addHandle (lib : Library) : Library :=
  { lib with
    openDevices := (lib.openDevices + 1) % openDevicesRange
    handles := lib.nextHandle :: lib.handles
    nextHandle := lib.nextHandle + 1 }

def hackrfOpenSetup (outs : SetupOutcomes) (lib : Library) : OpenResult :=
  match setHackrfConfiguration usbConfigStandard outs.configuration with
  | .success =>
      if outs.claim then
        if outs.record then
          match allocateTransfers false outs.transfers with
          | (.success, events) => {
              code := .success
              device := some lib.nextHandle
              events := [.acquire .interface, .acquire .record] ++ events
              library := lib.addHandle }
          | (_, events) => {
              code := .noMem
              device := none
              events := [.acquire .interface, .acquire .record] ++ events ++
                [.release .record, .release .interface, .release .usbHandle]
              library := lib }
        else {
          code := .noMem
          device := none
          events := [.acquire .interface, .release .interface,
            .release .usbHandle]
          library := lib }
      else ⟨.libusb, none, [.release .usbHandle], lib⟩
  | code => ⟨code, none, [.release .usbHandle], lib⟩

/-- `hackrf_open`; `device` says that the argument is not `NULL`. -/
def hackrfOpen (device : Bool) (outs : OpenOutcomes) (lib : Library) :
    OpenResult :=
  if device = false then ⟨.invalidParam, none, [], lib⟩
  else if outs.openWithVidPid .hackrfOne || outs.openWithVidPid .jawbreaker ||
      outs.openWithVidPid .rad1o then
    lib.hackrfOpenSetup outs.setup
  else ⟨.notFound, none, [], lib⟩

/-- `hackrf_open_by_serial`; `found` is whether `hackrf_open_usb` returned a
handle. -/
def hackrfOpenBySerial (serial device : Bool) (found : Bool)
    (outs : OpenOutcomes) (lib : Library) : OpenResult :=
  if serial = false then lib.hackrfOpen device outs
  else if device = false then ⟨.invalidParam, none, [], lib⟩
  else if found then lib.hackrfOpenSetup outs.setup
  else ⟨.notFound, none, [], lib⟩

/-- `hackrf_device_list_open`; `opened` is whether `libusb_open` succeeded. -/
def hackrfDeviceListOpen (args : DeviceListOpenCall) (opened : Bool)
    (setup : SetupOutcomes) (lib : Library) : OpenResult :=
  if args.device = false ∨ args.list = false ∨ args.idx < 0 ∨
      args.devicecount ≤ args.idx then
    ⟨.invalidParam, none, [], lib⟩
  else if opened then lib.hackrfOpenSetup setup
  else ⟨.libusb, none, [], lib⟩

def decrementOpenDevices (lib : Library) : Library :=
  { lib with
    openDevices :=
      (lib.openDevices + (openDevicesRange - 1)) % openDevicesRange }

/-- `hackrf_close`; `stopRx` and `stopTx` are what its two stop calls
return. -/
def hackrfClose (device : Option DeviceHandle) (stopRx stopTx : HackrfError)
    (lib : Library) : HackrfError × Library :=
  match device with
  | some handle =>
      (Streaming.Device.closeResult stopRx stopTx,
        { lib with handles := lib.handles.erase handle }.decrementOpenDevices)
  | none =>
      (Streaming.Device.closeResult .success .success, lib.decrementOpenDevices)

end Library

/-! ## What an open function does to the library -/

def AllocateOutcomes.AllSucceed (outs : AllocateOutcomes) : Prop :=
  outs.array = true ∧ ∀ index, outs.transfer index = true

structure SetupOutcomes.AllSucceed (outs : SetupOutcomes) : Prop where
  configuration :
    setHackrfConfiguration usbConfigStandard outs.configuration = .success
  claim : outs.claim = true
  record : outs.record = true
  transfers : outs.transfers.AllSucceed

theorem allocateLoop_success_iff (outs : AllocateOutcomes)
    (indices : List TransferIndex) :
    (allocateLoop outs indices).1 = .success ↔
      ∀ index ∈ indices, outs.transfer index = true := by
  induction indices with
  | nil => simp [allocateLoop]
  | cons index rest ih =>
      rw [allocateLoop, List.forall_mem_cons]
      cases houts : outs.transfer index with
      | true => simpa using ih
      | false => simp

theorem allocateTransfers_success_iff (outs : AllocateOutcomes) :
    (allocateTransfers false outs).1 = .success ↔ outs.AllSucceed := by
  have hloop := allocateLoop_success_iff outs (List.finRange transferCount)
  simp only [List.mem_finRange, true_imp_iff] at hloop
  unfold AllocateOutcomes.AllSucceed
  rw [← hloop, allocateTransfers]
  cases outs.array <;> simp

namespace Library

/-- The set-up either succeeds, when every step of it does, and hands out a
new pointer; or it fails and leaves the library as it was. -/
theorem hackrfOpenSetup_cases (outs : SetupOutcomes) (lib : Library) :
    (outs.AllSucceed ∧ (lib.hackrfOpenSetup outs).code = .success ∧
        (lib.hackrfOpenSetup outs).library = lib.addHandle) ∨
      (¬ outs.AllSucceed ∧ (lib.hackrfOpenSetup outs).code ≠ .success ∧
        (lib.hackrfOpenSetup outs).library = lib) := by
  unfold hackrfOpenSetup
  cases hconfig : setHackrfConfiguration usbConfigStandard outs.configuration
  case success =>
    cases hclaim : outs.claim with
    | false =>
        refine .inr ⟨fun hall => ?_, by simp, by simp⟩
        simp [hall.claim] at hclaim
    | true =>
        cases hrecord : outs.record with
        | false =>
            refine .inr ⟨fun hall => ?_, by simp, by simp⟩
            simp [hall.record] at hrecord
        | true =>
            have hiff := allocateTransfers_success_iff outs.transfers
            rcases hallocate : allocateTransfers false outs.transfers with
              ⟨code, events⟩
            rw [hallocate] at hiff
            cases code
            case success =>
              exact .inl ⟨⟨hconfig, hclaim, hrecord, hiff.mp rfl⟩, rfl, rfl⟩
            all_goals
              refine .inr ⟨fun hall => ?_, by simp, by simp⟩
              simpa using hiff.mpr hall.transfers
  all_goals
    refine .inr ⟨fun hall => ?_, by simp, by simp⟩
    simp [hall.configuration] at hconfig

theorem hackrfClose_handles (lib : Library) (handle : DeviceHandle)
    (stopRx stopTx : HackrfError) :
    (lib.hackrfClose (some handle) stopRx stopTx).2.hackrfExit.2.handles =
      lib.handles.erase handle := by
  unfold hackrfExit
  split_ifs <;> rfl

theorem hackrfInit_handles (lib : Library) (libusbInit : Bool) :
    (lib.hackrfInit libusbInit).2.handles = lib.handles := by
  unfold hackrfInit
  split_ifs <;> rfl

def FollowsFrom (lib : Library) (result : OpenResult) : Prop :=
  result.device = none ∧ result.code ≠ .success ∧ result.library = lib ∨
    result.device = some lib.nextHandle ∧ result.code = .success ∧
      result.library = lib.addHandle

theorem hackrfOpenSetup_followsFrom (outs : SetupOutcomes)
    (lib : Library) : lib.FollowsFrom (lib.hackrfOpenSetup outs) := by
  unfold hackrfOpenSetup
  split
  next =>
    split_ifs
    · split
      next => exact .inr ⟨rfl, rfl, rfl⟩
      next => exact .inl ⟨rfl, by simp, rfl⟩
    · exact .inl ⟨rfl, by simp, rfl⟩
    · exact .inl ⟨rfl, by simp, rfl⟩
  next code hcode =>
    exact .inl ⟨rfl, fun hsuccess => hcode hsuccess, rfl⟩

theorem hackrfOpenBySerial_followsFrom (serial found : Bool)
    (outs : OpenOutcomes) (lib : Library) :
    lib.FollowsFrom
      (lib.hackrfOpenBySerial serial true found outs) := by
  unfold hackrfOpenBySerial hackrfOpen
  simp only [Bool.true_eq_false, ↓reduceIte]
  split_ifs
  · exact lib.hackrfOpenSetup_followsFrom outs.setup
  · exact .inl ⟨rfl, by simp, rfl⟩
  · exact lib.hackrfOpenSetup_followsFrom outs.setup
  · exact .inl ⟨rfl, by simp, rfl⟩

end Library

end HackRF
