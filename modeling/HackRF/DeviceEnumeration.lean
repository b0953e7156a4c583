import HackRF.UsbDevices

/-!
# The device list

`hackrf_device_list` gives the HackRF devices consecutive slots.  The number of
the slot is kept in 8 bits, so that the list is right exactly as long as there
are no more than 256 devices.

The serial numbers of all devices are read into the same local array.  A failed
read leaves in it what was there before, and the negative error code, narrowed
to 8 bits, passes for a length.
-/

namespace HackRF

/-! ## One iteration -/

/-- The array `serial_number` after an attempt to read into it. -/
def StringReply.readInto (reply : StringReply) (mem : SerialMemory) :
    SerialMemory :=
  let (returned, mem) := getStringDescriptorAscii serialNumberSize reply mem
  Function.update mem (DeviceScan.serialLength returned) 0

/-- The entry of a device which could be asked for its serial number. -/
def UsbDevice.serialEntry (device : UsbDevice) (strdup : Bool)
    (mem : SerialMemory) : Option (List UInt8) :=
  if strdup then some (cString (device.serial.readInto mem)) else none

namespace DeviceScan

variable {outs : ListOutcomes} {i : ℕ} {device : UsbDevice} {scan : DeviceScan}

theorem addDevice_of_not_isHackrf (hother : device.isHackrf = false) :
    scan.addDevice outs i device = scan := by
  simp [addDevice, hother]

theorem addDevice_list (outs : ListOutcomes) (i : ℕ) (scan : DeviceScan)
    (hhackrf : device.isHackrf = true) :
    (scan.addDevice outs i device).list = {
      devicecount := scan.list.devicecount + 1
      usbBoardIds := Function.update scan.list.usbBoardIds
        (scan.list.devicecount % 256) device.idProduct
      usbDeviceIndex := Function.update scan.list.usbDeviceIndex
        (scan.list.devicecount % 256) i
      serialNumbers :=
        if device.answers then
          Function.update scan.list.serialNumbers
            (scan.list.devicecount % 256)
            (device.serialEntry (outs.strdup i) scan.serialNumber)
        else scan.list.serialNumbers } := by
  unfold addDevice UsbDevice.answers
  rw [if_pos hhackrf]
  by_cases hserial : 0 < device.iSerialNumber
  · cases hopens : device.opens <;>
      simp [hserial, UsbDevice.serialEntry, StringReply.readInto]
  · simp [hserial]

theorem addDevices_invariant (outs : ListOutcomes)
    (Inv : List UsbDevice → DeviceScan → Prop)
    (hstep : ∀ seen device scan, Inv seen scan →
      Inv (seen ++ [device]) (scan.addDevice outs seen.length device))
    {seen : List UsbDevice} (hinv : Inv seen scan) (rest : List UsbDevice) :
    Inv (seen ++ rest) (scan.addDevices outs seen.length rest) := by
  induction rest generalizing seen scan with
  | nil =>
      rw [List.append_nil]
      exact hinv
  | cons device rest ih =>
      have hnext := ih (hstep seen device scan hinv)
      rw [List.length_append, List.append_assoc] at hnext
      exact hnext

end DeviceScan

/-! ## The slots -/

/-- Opening a USB device as `hackrf_device_list_open` does it. -/
def Library.openUsbDevice (lib : Library) (usb : UsbOpenOutcomes) :
    OpenResult :=
  if usb.opened then lib.hackrfOpenSetup usb.setup
  else ⟨.libusb, none, [], lib⟩

theorem DeviceList.openAt_eq {list : DeviceList} {k : ℕ}
    (hk : k < list.devicecount) (usb : ℕ → UsbOpenOutcomes) (lib : Library) :
    list.openAt k true usb lib =
      lib.openUsbDevice (usb (list.usbDeviceIndex k)) := by
  unfold DeviceList.openAt Library.hackrfDeviceListOpen Library.openUsbDevice
  rw [Int.toNat_natCast, if_neg]
  simp only [Bool.true_eq_false, false_or, not_or, not_lt, not_le]
  exact ⟨Int.natCast_nonneg k, by exact_mod_cast hk⟩

/-- The slots of the list are the HackRF devices in their order. -/
structure DeviceList.Enumerates (list : DeviceList)
    (devices : List UsbDevice) : Prop where
  index : (List.range list.devicecount).map list.usbDeviceIndex =
    hackrfPositions devices
  boardId : ∀ (k position : ℕ) (device : UsbDevice),
    (hackrfPositions devices)[k]? = some position →
    devices[position]? = some device →
      list.usbBoardIds k = device.idProduct
  opens : ∀ k position : ℕ, (hackrfPositions devices)[k]? = some position →
    ∀ usb lib, list.openAt k true usb lib = lib.openUsbDevice (usb position)

theorem isHackrf_of_getElem?_hackrfPositions {devices : List UsbDevice}
    {k position : ℕ} {device : UsbDevice}
    (hk : (hackrfPositions devices)[k]? = some position)
    (hdevice : devices[position]? = some device) :
    device.isHackrf = true := by
  have hmem := List.mem_of_getElem? hk
  obtain ⟨hlt, hhackrf⟩ := List.mem_findIdxs_iff_exists_getElem_pos.mp hmem
  rw [List.getElem?_eq_getElem hlt, Option.some.injEq] at hdevice
  exact hdevice ▸ hhackrf

theorem exists_slot {devices : List UsbDevice} {position : ℕ}
    {device : UsbDevice} (hdevice : devices[position]? = some device)
    (hhackrf : device.isHackrf = true) :
    ∃ k : ℕ, (hackrfPositions devices)[k]? = some position := by
  obtain ⟨hlt, rfl⟩ := List.getElem?_eq_some_iff.mp hdevice
  exact List.mem_iff_getElem?.mp
    (List.mem_findIdxs_iff_exists_getElem_pos.mpr ⟨hlt, hhackrf⟩)

theorem lt_of_getElem?_hackrfPositions {devices : List UsbDevice}
    {k position : ℕ} (hk : (hackrfPositions devices)[k]? = some position) :
    position < devices.length := by
  have hmem := List.mem_of_getElem? hk
  obtain ⟨hlt, -⟩ := List.mem_findIdxs_iff_exists_getElem_pos.mp hmem
  exact hlt

theorem getElem?_concat_cases {α : Type*} {l : List α} {a b : α} {k : ℕ}
    (hk : (l ++ [a])[k]? = some b) :
    (k < l.length ∧ l[k]? = some b) ∨ (k = l.length ∧ b = a) := by
  rcases Nat.lt_trichotomy k l.length with hlt | heq | hgt
  · left
    rw [List.getElem?_append_left hlt] at hk
    exact ⟨hlt, hk⟩
  · right
    subst k
    simp only [List.getElem?_concat_length, Option.some.injEq] at hk
    exact ⟨rfl, hk.symm⟩
  · rw [List.getElem?_eq_none (by simp; omega)] at hk
    simp at hk

/-- As long as 8 bits suffice for the slots, the entry of each HackRF seen so
far is what `P` says of the device and its position. -/
def Filled {β : Type*} (P : ℕ → UsbDevice → β → Prop)
    (seen : List UsbDevice) (table : ℕ → β) : Prop :=
  (hackrfPositions seen).length ≤ 256 →
    ∀ (k position : ℕ) (device : UsbDevice),
      (hackrfPositions seen)[k]? = some position →
      seen[position]? = some device → P position device (table k)

section Filled

variable {β : Type*} {P : ℕ → UsbDevice → β → Prop} {seen : List UsbDevice}
  {table : ℕ → β} {device : UsbDevice}

theorem Filled.skip (hfilled : Filled P seen table)
    (hother : device.isHackrf = false) : Filled P (seen ++ [device]) table := by
  have hsame : hackrfPositions (seen ++ [device]) = hackrfPositions seen := by
    simp [hackrfPositions_concat, hother]
  intro hcount k position device' hk hdevice
  rw [hsame] at hcount hk
  rw [List.getElem?_append_left (lt_of_getElem?_hackrfPositions hk)] at hdevice
  exact hfilled hcount k position device' hk hdevice

theorem Filled.add (hfilled : Filled P seen table)
    (hhackrf : device.isHackrf = true) {value : β}
    (hvalue : P seen.length device value) :
    Filled P (seen ++ [device]) (Function.update table
      ((hackrfPositions seen).length % 256) value) := by
  have hcons : hackrfPositions (seen ++ [device]) =
      hackrfPositions seen ++ [seen.length] := by
    simp [hackrfPositions_concat, hhackrf]
  intro hcount k position device' hk hdevice
  rw [hcons, List.length_append, List.length_singleton] at hcount
  rw [Nat.mod_eq_of_lt hcount]
  rw [hcons] at hk
  rcases getElem?_concat_cases hk with ⟨hlt, hold⟩ | ⟨rfl, rfl⟩
  · rw [Function.update_of_ne hlt.ne]
    rw [List.getElem?_append_left (lt_of_getElem?_hackrfPositions hold)]
      at hdevice
    exact hfilled (Nat.le_of_succ_le hcount) k position device' hold hdevice
  · simp only [List.getElem?_concat_length, Option.some.injEq] at hdevice
    subst device'
    rw [Function.update_self]
    exact hvalue

end Filled

structure DeviceScan.Slots (seen : List UsbDevice) (scan : DeviceScan) :
    Prop where
  devicecount : scan.list.devicecount = (hackrfPositions seen).length
  index : Filled (fun position _ entry => entry = position) seen
    scan.list.usbDeviceIndex
  boardId : Filled (fun _ device entry => entry = device.idProduct) seen
    scan.list.usbBoardIds
  unused : ∀ k, 256 ≤ k → scan.list.usbDeviceIndex k = 0

theorem DeviceScan.Slots.initial (stack : SerialMemory) :
    (DeviceScan.initial stack).Slots [] := by
  constructor <;> simp [DeviceScan.initial, Filled, hackrfPositions]

theorem DeviceScan.Slots.addDevice (outs : ListOutcomes)
    (seen : List UsbDevice) (device : UsbDevice) (scan : DeviceScan)
    (hslots : scan.Slots seen) :
    (scan.addDevice outs seen.length device).Slots (seen ++ [device]) := by
  cases hhackrf : device.isHackrf with
  | false =>
      rw [addDevice_of_not_isHackrf hhackrf]
      constructor
      · simpa [hackrfPositions_concat, hhackrf] using hslots.devicecount
      · exact hslots.index.skip hhackrf
      · exact hslots.boardId.skip hhackrf
      · exact hslots.unused
  | true =>
      have hlist := addDevice_list outs seen.length scan hhackrf
      rw [hslots.devicecount] at hlist
      constructor
      · simp [hlist, hackrfPositions_concat, hhackrf]
      · rw [hlist]
        exact hslots.index.add hhackrf rfl
      · rw [hlist]
        exact hslots.boardId.add hhackrf rfl
      · intro k hk
        have hne : k ≠ (hackrfPositions seen).length % 256 := by omega
        rw [hlist]
        dsimp only
        rw [Function.update_of_ne hne]
        exact hslots.unused k hk

theorem hackrfDeviceList_of_arrays {outs : ListOutcomes}
    (harrays : outs.arrays = true) (devices : List UsbDevice)
    (stack : SerialMemory) :
    hackrfDeviceList outs devices stack =
      some ((DeviceScan.initial stack).addDevices outs 0 devices).list :=
  if_pos harrays

theorem slots_of_hackrfDeviceList {outs : ListOutcomes}
    {devices : List UsbDevice} {stack : SerialMemory} {list : DeviceList}
    (hlist : hackrfDeviceList outs devices stack = some list) :
    ∃ scan : DeviceScan, scan.list = list ∧ scan.Slots devices := by
  unfold hackrfDeviceList at hlist
  split_ifs at hlist
  have hslots := DeviceScan.addDevices_invariant outs
    (fun seen scan => scan.Slots seen)
    (fun seen device scan => DeviceScan.Slots.addDevice outs seen device scan)
    (DeviceScan.Slots.initial stack) devices
  exact ⟨_, Option.some.inj hlist, hslots⟩

theorem DeviceScan.Slots.enumerates {devices : List UsbDevice}
    {scan : DeviceScan} (hslots : scan.Slots devices)
    (hcount : (hackrfPositions devices).length ≤ 256) :
    scan.list.Enumerates devices where
  index := by
    rw [hslots.devicecount]
    apply List.ext_getElem
    · simp
    · intro k hleft hright
      rw [List.getElem_map, List.getElem_range]
      have hk := List.getElem?_eq_getElem hright
      exact hslots.index hcount k _ _ hk
        (List.getElem?_eq_getElem (lt_of_getElem?_hackrfPositions hk))
  boardId := hslots.boardId hcount
  opens := by
    intro k position hk usb lib
    have hlt := (List.getElem?_eq_some_iff.mp hk).1
    have hposition := hslots.index hcount k position _ hk
      (List.getElem?_eq_getElem (lt_of_getElem?_hackrfPositions hk))
    rw [DeviceList.openAt_eq (hslots.devicecount.symm ▸ hlt), hposition]

theorem DeviceScan.Slots.count_le {devices : List UsbDevice}
    {scan : DeviceScan} (hslots : scan.Slots devices)
    (henumerates : scan.list.Enumerates devices) :
    (hackrfPositions devices).length ≤ 256 := by
  by_contra hmany
  -- slot 256 is never written, but the 257th device is not the first one
  have hmany : 256 < (hackrfPositions devices).length := by omega
  have hentry : scan.list.usbDeviceIndex 256 =
      (hackrfPositions devices)[256] := by
    have hindex := congrArg (·[256]?) henumerates.index
    simp only [hslots.devicecount, List.getElem?_eq_getElem hmany] at hindex
    rw [List.getElem?_map, List.getElem?_range hmany] at hindex
    exact Option.some.inj hindex
  have hzero := hslots.unused 256 le_rfl
  have hincreasing : (hackrfPositions devices).Pairwise (· < ·) :=
    List.pairwise_findIdxs
  have hfirst := List.pairwise_iff_getElem.mp hincreasing 0 256
    (Nat.lt_trans (by decide) hmany) hmany (by decide)
  omega

/-- The device list enumerates the HackRF devices exactly if there are at most
256 of them. -/
theorem enumerates_iff {outs : ListOutcomes} {devices : List UsbDevice}
    {stack : SerialMemory} {list : DeviceList}
    (hlist : hackrfDeviceList outs devices stack = some list) :
    list.Enumerates devices ↔ (hackrfPositions devices).length ≤ 256 := by
  obtain ⟨scan, rfl, hslots⟩ := slots_of_hackrfDeviceList hlist
  exact ⟨hslots.count_le, hslots.enumerates⟩

def ListOutcomes.granted : ListOutcomes where
  arrays := true
  strdup := fun _ => true

theorem enumerates_single :
    ∃ list, hackrfDeviceList .granted [.unnumbered] (fun _ => 0) = some list ∧
      list.Enumerates [.unnumbered] := by
  have hlist := hackrfDeviceList_of_arrays
    (show ListOutcomes.granted.arrays = true from rfl) [.unnumbered]
    (fun _ => 0)
  exact ⟨_, hlist, (enumerates_iff hlist).mpr (by decide)⟩

/-- The 257th of as many devices takes the slot of the first one, so that its
own slot still says that it is the device at position 0. -/
theorem enumerates_fails_many :
    ∃ list, hackrfDeviceList .granted (List.replicate 257 .unnumbered)
        (fun _ => 0) = some list ∧
      list.usbDeviceIndex 256 = 0 ∧
      ¬ list.Enumerates (List.replicate 257 .unnumbered) := by
  have hlist := hackrfDeviceList_of_arrays
    (show ListOutcomes.granted.arrays = true from rfl)
    (List.replicate 257 .unnumbered) (fun _ => 0)
  obtain ⟨scan, hscan, hslots⟩ := slots_of_hackrfDeviceList hlist
  rw [← hscan] at hlist
  refine ⟨scan.list, hlist, hslots.unused 256 le_rfl, fun henumerates => ?_⟩
  have hcount := hslots.count_le henumerates
  rw [hackrfPositions, List.length_findIdxs, List.countP_replicate] at hcount
  exact absurd hcount (by decide)

end HackRF
