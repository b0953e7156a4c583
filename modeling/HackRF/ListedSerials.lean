import HackRF.SerialMatch
import HackRF.SerialNumbers
import Mathlib.Data.List.TakeWhile

/-!
# Opening what the list shows

`hackrf_device_list` and `hackrf_open_usb` go through the same devices, read
the same serial numbers and treat them differently: the one copies them into
slots, the other compares their ends with a desired string.  If the serial
numbers can be read and fit into 32 characters, both agree, and opening by a
serial number or by the end of one opens the first slot which shows it.
-/

namespace HackRF

/-- The serial number can be read, fits into an entry of the list and is at
least as long as the desired string. -/
def UsbDevice.Listable (desired : List UInt8) (device : UsbDevice) : Prop :=
  ∃ chars, device.serial = .string chars ∧ desired.length ≤ chars.length ∧
    chars.length ≤ usbMaxSerialLength ∧ 0 ∉ chars

/-- The slot shows a serial number which ends with the desired string. -/
def DeviceList.shows (list : DeviceList) (desired : List UInt8) (k : ℕ) :
    Bool :=
  (list.serialNumbers k).any fun serial => decide (desired <:+ serial)

def DeviceList.slotOf (list : DeviceList) (desired : List UInt8) : Option ℕ :=
  (List.range list.devicecount).find? (list.shows desired)

/-! ## The first device and the first slot -/

theorem matchesSerial_le_isHackrf {desired : List UInt8} {device : UsbDevice}
    (hmatches : device.matchesSerial desired = true) :
    device.isHackrf = true := by
  unfold UsbDevice.matchesSerial at hmatches
  exact (Bool.and_eq_true _ _ ▸ hmatches).1

/-- The first device that matches is the first match among the HackRF
devices. -/
theorem findIdx?_matchesSerial (desired : List UInt8)
    (devices : List UsbDevice) :
    devices.findIdx? (UsbDevice.matchesSerial desired) =
      (hackrfPositions devices).find? fun position =>
        (devices[position]?).any (UsbDevice.matchesSerial desired) := by
  induction devices using List.reverseRecOn with
  | nil => rfl
  | append_singleton seen device ih =>
      have hsame : (hackrfPositions seen).find? (fun position =>
            ((seen ++ [device])[position]?).any
              (UsbDevice.matchesSerial desired)) =
          (hackrfPositions seen).find? fun position =>
            (seen[position]?).any (UsbDevice.matchesSerial desired) := by
        apply List.find?_congr
        intro position hposition
        obtain ⟨k, hk⟩ := List.mem_iff_getElem?.mp hposition
        rw [List.getElem?_append_left (lt_of_getElem?_hackrfPositions hk)]
      rw [List.findIdx?_append, hackrfPositions_concat, List.find?_append,
        hsame, ← ih]
      congr 1
      cases hmatches : device.matchesSerial desired with
      | true =>
          rw [if_pos (matchesSerial_le_isHackrf hmatches)]
          simp [hmatches]
      | false => split_ifs <;> simp [hmatches]

/-! ## The entry of a device that can be listed -/

theorem cutSerial_eq_self {chars : List UInt8}
    (hmax : chars.length ≤ usbMaxSerialLength) (hnul : 0 ∉ chars) :
    cutSerial chars = chars := by
  unfold cutSerial
  rw [List.take_of_length_le hmax, List.takeWhile_eq_self_iff]
  intro char hchar
  rw [decide_eq_true_iff]
  rintro rfl
  exact hnul hchar

theorem UsbDevice.Listable.legible {desired : List UInt8} {device : UsbDevice}
    (hlistable : device.Listable desired) : device.Legible desired := by
  obtain ⟨chars, hserial, hlong, hmax, -⟩ := hlistable
  exact ⟨chars, hserial, hlong, by rw [List.take_of_length_le hmax]⟩

/-- All HackRF devices which can be asked for their serial number deliver one
that can be listed. -/
def AllListable (desired : List UInt8) (devices : List UsbDevice) : Prop :=
  ∀ device ∈ devices, device.isHackrf = true → device.answers = true →
    device.Listable desired

section List

variable {outs : ListOutcomes} {devices : List UsbDevice} {scan : DeviceScan}
  {desired : List UInt8}

theorem AllListable.legibleUpToMatch
    (hlistable : AllListable desired devices) :
    LegibleUpToMatch desired devices := by
  intro before device after hdevices _ hhackrf hanswers
  have hmem : device ∈ devices := by simp [hdevices]
  exact (hlistable device hmem hhackrf hanswers).legible

theorem AllListable.serialRead_map (hlistable : AllListable desired devices)
    {device : UsbDevice} (hmem : device ∈ devices)
    (hhackrf : device.isHackrf = true) :
    device.serialRead.map cutSerial = device.serialRead := by
  unfold UsbDevice.serialRead
  split_ifs with hanswers
  · obtain ⟨chars, hserial, -, hmax, hnul⟩ :=
      hlistable device hmem hhackrf hanswers
    rw [hserial, Option.map_some, cutSerial_eq_self hmax hnul]
  · rfl

theorem AllListable.not_stale (hlistable : AllListable desired devices)
    {device : UsbDevice} (hmem : device ∈ devices) (strdup : Bool) :
    ¬ device.Stale strdup := by
  intro hstale
  obtain ⟨chars, hserial, -⟩ :=
    hlistable device hmem hstale.isHackrf hstale.answers
  have hunread := hstale.unread
  simp [UsbDevice.serialRead, hstale.answers, hserial] at hunread

/-- A slot shows what its device delivers. -/
theorem DeviceScan.Serials.shows_eq (hserials : scan.Serials outs devices)
    (hcount : (hackrfPositions devices).length ≤ 256)
    (hstrdup : ∀ position, outs.strdup position = true)
    (hlistable : AllListable desired devices) {k : ℕ}
    (hk : k < scan.list.devicecount) :
    scan.list.shows desired k =
      (devices[scan.list.usbDeviceIndex k]?).any
        (UsbDevice.matchesSerial desired) := by
  rw [hserials.devicecount] at hk
  obtain ⟨position, hposition⟩ : ∃ position,
      (hackrfPositions devices)[k]? = some position :=
    ⟨_, List.getElem?_eq_getElem hk⟩
  obtain ⟨device, hdevice⟩ : ∃ device, devices[position]? = some device :=
    ⟨_, List.getElem?_eq_getElem (lt_of_getElem?_hackrfPositions hposition)⟩
  have hmem := List.mem_of_getElem? hdevice
  have hhackrf := isHackrf_of_getElem?_hackrfPositions hposition hdevice
  have hindex := hserials.index hcount k position device hposition hdevice
  have hentry := hserials.entry_of_not_stale hcount hposition hdevice
    (hlistable.not_stale hmem _)
  rw [if_pos (hstrdup position), hlistable.serialRead_map hmem hhackrf]
    at hentry
  rw [hindex, hdevice, DeviceList.shows, hentry, Option.any_some,
    UsbDevice.matchesSerial, hhackrf, Bool.true_and]
  cases device.serialRead with
  | none => rfl
  | some chars => rfl

theorem DeviceScan.Serials.findIdx?_eq_slotOf
    (hserials : scan.Serials outs devices)
    (hcount : (hackrfPositions devices).length ≤ 256)
    (hstrdup : ∀ position, outs.strdup position = true)
    (hlistable : AllListable desired devices) :
    devices.findIdx? (UsbDevice.matchesSerial desired) =
      (scan.list.slotOf desired).map scan.list.usbDeviceIndex := by
  have henumerates := hserials.toSlots.enumerates hcount
  rw [findIdx?_matchesSerial, ← henumerates.index, List.find?_map,
    DeviceList.slotOf]
  congr 1
  apply List.find?_congr
  intro k hk
  rw [Function.comp_apply, hserials.shows_eq hcount hstrdup hlistable
    (List.mem_range.mp hk)]

end List

theorem hackrfOpenUsb_of_listable {desired : List UInt8}
    {devices : List UsbDevice} (hmax : desired.length ≤ usbMaxSerialLength)
    (hlistable : AllListable desired devices) (stack : SerialMemory) :
    LoopSelects desired 0 devices
      (hackrfOpenUsb (some desired) devices stack) := by
  have hlong : ¬ ∃ chars ∈ some desired, 32 < chars.length := by
    simpa using hmax
  have hselects := (loopSelects_iff hmax 0 devices stack).mpr
    hlistable.legibleUpToMatch
  unfold hackrfOpenUsb
  rw [if_neg hlong]
  exact ⟨hselects.inBounds, hselects.selects⟩

/-- Opening by a serial number, or by the end of one, stays in the buffer and
opens the first device which the list shows with it: as
`hackrf_device_list_open` opens its slot, and no device if no slot shows
it. -/
theorem openBySerial_opens_shown {desired : List UInt8}
    {outs : ListOutcomes} {devices : List UsbDevice} {stack : SerialMemory}
    {list : DeviceList} (hmax : desired.length ≤ usbMaxSerialLength)
    (hcount : (hackrfPositions devices).length ≤ 256)
    (hstrdup : ∀ position, outs.strdup position = true)
    (hlistable : AllListable desired devices)
    (hlist : hackrfDeviceList outs devices stack = some list)
    (stack' : SerialMemory) :
    let opened := hackrfOpenUsb (some desired) devices stack'
    (∀ index ∈ opened.accesses, 0 ≤ index ∧ index < serialNumberSize) ∧
      opened.handle = (list.slotOf desired).map list.usbDeviceIndex ∧
      ∀ (lib : Library) (usb : ℕ → UsbOpenOutcomes) (setup : OpenOutcomes),
        lib.hackrfOpenBySerial true true opened.handle.isSome setup =
          match list.slotOf desired with
          | some k => list.openAt k true
              (Function.update usb (list.usbDeviceIndex k)
                ⟨true, setup.setup⟩) lib
          | none => ⟨.notFound, none, [], lib⟩ := by
  intro opened
  obtain ⟨scan, rfl, hserials⟩ := serials_of_hackrfDeviceList hlist
  have hselects := hackrfOpenUsb_of_listable hmax hlistable stack'
  have hhandle : opened.handle =
      (scan.list.slotOf desired).map scan.list.usbDeviceIndex := by
    rw [← hserials.findIdx?_eq_slotOf hcount hstrdup hlistable]
    simpa using hselects.selects
  refine ⟨hselects.inBounds, hhandle, ?_⟩
  intro lib usb setup
  rw [hhandle]
  cases hslot : scan.list.slotOf desired with
  | none => rfl
  | some k =>
      have hk : k < scan.list.devicecount :=
        List.mem_range.mp (List.mem_of_find?_eq_some hslot)
      dsimp only
      rw [DeviceList.openAt_eq hk, Function.update_self]
      rfl

/-- Of three devices the last two end with the same characters, and the first
of these is opened. -/
theorem openBySerial_opens_shown_second :
    let devices : List UsbDevice :=
      [.numbered [65, 66], .numbered [67, 68], .numbered [69, 68]]
    (hackrfOpenUsb (some [68]) devices (fun _ => 0xFF)).handle = some 1 := by
  intro devices
  have hlistable : AllListable [68] devices := by
    intro device hmem _ _
    have hserial : ∃ chars, device = .numbered chars ∧ chars.length = 2 ∧
        0 ∉ chars := by
      simp only [devices, List.mem_cons, List.not_mem_nil, or_false] at hmem
      rcases hmem with rfl | rfl | rfl
      · exact ⟨_, rfl, rfl, by decide⟩
      · exact ⟨_, rfl, rfl, by decide⟩
      · exact ⟨_, rfl, rfl, by decide⟩
    obtain ⟨chars, rfl, hlength, hnul⟩ := hserial
    exact ⟨chars, rfl, by simp [hlength], hlength.le.trans (by decide),
      hnul⟩
  have hopened := openBySerial_opens_shown (by decide) (by decide)
    (fun _ => rfl) hlistable
    (hackrfDeviceList_of_arrays (show ListOutcomes.granted.arrays = true from rfl)
      devices (fun _ => 0)) (fun _ => 0xFF)
  exact hopened.2.1.trans (by decide)

end HackRF
