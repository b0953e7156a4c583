import HackRF.DeviceEnumeration

/-!
# The serial numbers of the device list

A serial number which was read fills the local array and ends with a `NUL`, so
that its entry depends on the device alone.  If the read failed, the entry is a
copy of whatever the array still holds, and no other device is affected.
-/

namespace HackRF

/-- A serial number as a C string, cut to 32 characters. -/
def cutSerial (chars : List UInt8) : List UInt8 :=
  (chars.take usbMaxSerialLength).takeWhile (· ≠ 0)

/-- The device opens and fails to deliver its serial number, but its entry is
filled nevertheless. -/
structure UsbDevice.Stale (device : UsbDevice) (strdup : Bool) : Prop where
  isHackrf : device.isHackrf = true
  answers : device.answers = true
  unread : device.serialRead = none
  strdup : strdup = true

/-- The serial numbers in a list are those of their own devices, and the serial
number of one device matters for its own entry only. -/
structure DeviceList.SerialsOwn (outs : ListOutcomes)
    (devices : List UsbDevice) (list : DeviceList) : Prop where
  own : ∀ (k position : ℕ) (device : UsbDevice),
    (hackrfPositions devices)[k]? = some position →
    devices[position]? = some device →
      ∀ serial, list.serialNumbers k = some serial →
        device.serialRead.map cutSerial = some serial
  unread : ∀ (k position : ℕ) (device : UsbDevice),
    (hackrfPositions devices)[k]? = some position →
    devices[position]? = some device →
      device.serialRead = none → list.serialNumbers k = none
  independent : ∀ (j position : ℕ) (device : UsbDevice) (serial : StringReply)
    (stack : SerialMemory) (other : DeviceList),
    (hackrfPositions devices)[j]? = some position →
    devices[position]? = some device →
    hackrfDeviceList outs
        (devices.set position { device with serial := serial }) stack =
      some other →
      ∀ k, k ≠ j → other.serialNumbers k = list.serialNumbers k

/-! ## The entry of one device -/

theorem takeWhile_append_of_not {α : Type*} {p : α → Bool} {a : α}
    (hp : p a = false) (before after : List α) :
    (before ++ a :: after).takeWhile p = before.takeWhile p := by
  induction before with
  | nil => simp [hp]
  | cons b rest ih =>
      rw [List.cons_append, List.takeWhile_cons, List.takeWhile_cons, ih]

theorem cString_readInto (chars : List UInt8) (mem : SerialMemory) :
    cString ((StringReply.string chars).readInto mem) = cutSerial chars := by
  let length := min chars.length usbMaxSerialLength
  have hle : length ≤ usbMaxSerialLength := Nat.min_le_right _ _
  have hlength : DeviceScan.serialLength
      ((min chars.length (serialNumberSize - 1) : ℕ) : ℤ) = length := by
    unfold DeviceScan.serialLength serialNumberSize
    simp only [length, usbMaxSerialLength]
    split_ifs <;> omega
  have hmem : ∀ i < length,
      (StringReply.string chars).readInto mem i = chars.getD i 0 := by
    intro i hi
    unfold StringReply.readInto getStringDescriptorAscii
    dsimp only
    rw [hlength, Function.update_of_ne (by omega)]
    refine getStringDescriptorAscii_of_lt ?_ mem
    simp only [length, serialNumberSize, usbMaxSerialLength] at hi ⊢
    omega
  have hend : (StringReply.string chars).readInto mem length = 0 := by
    unfold StringReply.readInto getStringDescriptorAscii
    dsimp only
    rw [hlength, Function.update_self]
  have hread : (List.range length).map
      (fun i : ℕ => (StringReply.string chars).readInto mem i) =
        chars.take usbMaxSerialLength := by
    have htake : chars.take length = chars.take usbMaxSerialLength := by
      simp only [length]
      rw [Nat.min_comm, ← List.take_eq_take_min]
    have hmap := map_range_getD
      (show 0 + length ≤ chars.length by simp [length]) 0
    simp only [Nat.zero_add, List.drop_zero] at hmap
    rw [← htake, ← hmap]
    exact List.map_congr_left fun i hi => hmem i (List.mem_range.mp hi)
  -- the first characters, then the `NUL`, then what does not matter
  obtain ⟨rest, hrest⟩ : ∃ rest, serialNumberSize = length + (rest + 1) :=
    ⟨serialNumberSize - 1 - length, by
      unfold serialNumberSize usbMaxSerialLength at *
      omega⟩
  unfold cString cutSerial
  rw [hrest, List.range_add, List.map_append, hread, List.range_succ_eq_map]
  simp only [List.map_cons, Nat.add_zero, hend]
  exact takeWhile_append_of_not (by simp) _ _

theorem UsbDevice.serialEntry_of_read {device : UsbDevice}
    {chars : List UInt8} (hread : device.serialRead = some chars)
    (strdup : Bool) (mem : SerialMemory) :
    device.serialEntry strdup mem =
      if strdup then some (cutSerial chars) else none := by
  unfold UsbDevice.serialRead at hread
  unfold UsbDevice.serialEntry
  split_ifs at hread with hanswers
  cases hserial : device.serial with
  | error code negative => simp [hserial] at hread
  | string chars' =>
      simp only [hserial, Option.some.injEq] at hread
      subst chars'
      rw [cString_readInto]

/-! ## The entries of all devices -/

/-- The entries filled so far; `mem` is what the local array held before. -/
structure DeviceScan.Serials (outs : ListOutcomes) (seen : List UsbDevice)
    (scan : DeviceScan) : Prop extends scan.Slots seen where
  entry : Filled (fun position device entry => ∃ mem, entry =
    if device.answers then device.serialEntry (outs.strdup position) mem
    else none) seen scan.list.serialNumbers
  unfilled : (hackrfPositions seen).length ≤ 256 →
    ∀ k, (hackrfPositions seen).length ≤ k → scan.list.serialNumbers k = none

theorem DeviceScan.Serials.addDevice (outs : ListOutcomes)
    (seen : List UsbDevice) (device : UsbDevice) (scan : DeviceScan)
    (hserials : scan.Serials outs seen) :
    (scan.addDevice outs seen.length device).Serials outs
      (seen ++ [device]) := by
  refine ⟨hserials.toSlots.addDevice outs seen device scan, ?_, ?_⟩
  · cases hhackrf : device.isHackrf with
    | false =>
        rw [addDevice_of_not_isHackrf hhackrf]
        exact hserials.entry.skip hhackrf
    | true =>
        rw [addDevice_list outs seen.length scan hhackrf, hserials.devicecount]
        cases hanswers : device.answers with
        | true =>
            apply hserials.entry.add hhackrf
            exact ⟨scan.serialNumber, by rw [if_pos hanswers]⟩
        | false =>
            intro hcount
            have hlength : (hackrfPositions seen).length + 1 ≤ 256 := by
              simpa [hackrfPositions_concat, hhackrf] using hcount
            -- the slot still holds the null pointer of `calloc`
            have hnull : Function.update scan.list.serialNumbers
                (hackrfPositions seen).length none =
                scan.list.serialNumbers := by
              rw [← hserials.unfilled (by omega) (hackrfPositions seen).length
                le_rfl]
              exact Function.update_eq_self _ _
            have hadd := hserials.entry.add hhackrf
              ⟨scan.serialNumber, (if_neg (by simp [hanswers])).symm⟩
            rw [Nat.mod_eq_of_lt (by omega), hnull] at hadd
            exact hadd hcount
  · intro hcount k hk
    cases hhackrf : device.isHackrf with
    | false =>
        rw [hackrfPositions_concat, hhackrf] at hcount hk
        rw [addDevice_of_not_isHackrf hhackrf]
        exact hserials.unfilled (by simpa using hcount) k (by simpa using hk)
    | true =>
        rw [hackrfPositions_concat, hhackrf] at hcount hk
        simp only [↓reduceIte, List.length_append, List.length_singleton]
          at hcount hk
        have hold := hserials.unfilled (by omega) k (by omega)
        rw [addDevice_list outs seen.length scan hhackrf, hserials.devicecount]
        dsimp only
        split_ifs
        · rwa [Function.update_of_ne (by omega)]
        · exact hold

theorem serials_of_hackrfDeviceList {outs : ListOutcomes}
    {devices : List UsbDevice} {stack : SerialMemory} {list : DeviceList}
    (hlist : hackrfDeviceList outs devices stack = some list) :
    ∃ scan : DeviceScan, scan.list = list ∧ scan.Serials outs devices := by
  unfold hackrfDeviceList at hlist
  split_ifs at hlist
  have hinitial : (DeviceScan.initial stack).Serials outs [] := by
    refine ⟨DeviceScan.Slots.initial stack, ?_, ?_⟩ <;>
      simp [DeviceScan.initial, Filled, hackrfPositions]
  have hserials := DeviceScan.addDevices_invariant outs
    (fun seen scan => scan.Serials outs seen)
    (fun seen device scan =>
      DeviceScan.Serials.addDevice outs seen device scan)
    hinitial devices
  exact ⟨_, Option.some.inj hlist, hserials⟩

section List

variable {outs : ListOutcomes} {devices : List UsbDevice} {scan : DeviceScan}

theorem DeviceScan.Serials.entry_of_not_stale
    (hserials : scan.Serials outs devices)
    (hcount : (hackrfPositions devices).length ≤ 256)
    {k position : ℕ} {device : UsbDevice}
    (hk : (hackrfPositions devices)[k]? = some position)
    (hdevice : devices[position]? = some device)
    (hstale : ¬ device.Stale (outs.strdup position)) :
    scan.list.serialNumbers k =
      if outs.strdup position then device.serialRead.map cutSerial
      else none := by
  obtain ⟨mem, hentry⟩ := hserials.entry hcount k position device hk hdevice
  rw [hentry]
  cases hread : device.serialRead with
  | some chars =>
      have hanswers : device.answers = true := by
        by_contra hsilent
        simp [UsbDevice.serialRead, hsilent] at hread
      rw [if_pos hanswers, UsbDevice.serialEntry_of_read hread]
      rfl
  | none =>
      rw [Option.map_none, ite_self]
      split_ifs with hanswers
      · have hhackrf := isHackrf_of_getElem?_hackrfPositions hk hdevice
        have hstrdup : outs.strdup position = false := by
          by_contra hgranted
          exact hstale ⟨hhackrf, hanswers, hread, by simpa using hgranted⟩
        simp [UsbDevice.serialEntry, hstrdup]
      · rfl

theorem hackrfPositions_set {position : ℕ} {device : UsbDevice}
    (hdevice : devices[position]? = some device) (serial : StringReply) :
    hackrfPositions (devices.set position { device with serial := serial }) =
      hackrfPositions devices := by
  have hmap : (devices.set position
      { device with serial := serial }).map UsbDevice.isHackrf =
        devices.map UsbDevice.isHackrf := by
    apply List.ext_getElem?
    intro i
    rw [List.getElem?_map, List.getElem?_map]
    by_cases hi : position = i
    · subst i
      have hlt := (List.getElem?_eq_some_iff.mp hdevice).1
      rw [List.getElem?_set_self hlt, hdevice]
      rfl
    · rw [List.getElem?_set_ne hi]
  unfold hackrfPositions
  rw [← Function.id_comp UsbDevice.isHackrf, ← List.findIdxs_map,
    ← List.findIdxs_map, hmap]

theorem DeviceScan.Serials.independent
    (hserials : scan.Serials outs devices)
    (hcount : (hackrfPositions devices).length ≤ 256)
    (hstale : ∀ (position : ℕ) (device : UsbDevice),
      devices[position]? = some device →
        ¬ device.Stale (outs.strdup position))
    {j position : ℕ} {device : UsbDevice} {serial : StringReply}
    {other : DeviceScan}
    (hj : (hackrfPositions devices)[j]? = some position)
    (hdevice : devices[position]? = some device)
    (hother : other.Serials outs
      (devices.set position { device with serial := serial }))
    {k : ℕ} (hk : k ≠ j) :
    other.list.serialNumbers k = scan.list.serialNumbers k := by
  have hsame := hackrfPositions_set hdevice serial
  rcases Nat.lt_or_ge k (hackrfPositions devices).length with hlt | hge
  · obtain ⟨slot, hslot⟩ : ∃ slot, (hackrfPositions devices)[k]? = some slot :=
      ⟨_, List.getElem?_eq_getElem hlt⟩
    obtain ⟨listed, hlisted⟩ : ∃ listed, devices[slot]? = some listed :=
      ⟨_, List.getElem?_eq_getElem (lt_of_getElem?_hackrfPositions hslot)⟩
    have hne : position ≠ slot := by
      rintro rfl
      have hnodup : (hackrfPositions devices).Nodup := List.nodup_findIdxs
      exact hk ((List.getElem?_inj hlt hnodup).mp (hslot.trans hj.symm))
    have hchanged : (devices.set position
        { device with serial := serial })[slot]? = some listed := by
      rw [List.getElem?_set_ne hne]
      exact hlisted
    have hfresh := hstale slot listed hlisted
    rw [hserials.entry_of_not_stale hcount hslot hlisted hfresh]
    rw [← hsame] at hcount hslot
    exact hother.entry_of_not_stale hcount hslot hchanged hfresh
  · rw [hserials.unfilled hcount k hge]
    rw [← hsame] at hcount hge
    exact hother.unfilled hcount k hge

end List

/-- In a list of at most 256 devices the serial numbers are right exactly if no
device which opens fails to deliver its serial number, except where `strdup`
fails as well. -/
theorem serialsOwn_iff {outs : ListOutcomes} {devices : List UsbDevice}
    {stack : SerialMemory} {list : DeviceList}
    (hcount : (hackrfPositions devices).length ≤ 256)
    (hlist : hackrfDeviceList outs devices stack = some list) :
    list.SerialsOwn outs devices ↔
      ∀ (position : ℕ) (device : UsbDevice),
        devices[position]? = some device →
          ¬ device.Stale (outs.strdup position) := by
  obtain ⟨scan, rfl, hserials⟩ := serials_of_hackrfDeviceList hlist
  constructor
  · intro hown position device hdevice hstale
    obtain ⟨k, hk⟩ := exists_slot hdevice hstale.isHackrf
    obtain ⟨mem, hentry⟩ :=
      hserials.entry hcount k position device hk hdevice
    rw [hown.unread k position device hk hdevice hstale.unread,
      if_pos hstale.answers] at hentry
    simp [UsbDevice.serialEntry, hstale.strdup] at hentry
  · intro hstale
    have hentry : ∀ (k position : ℕ) (device : UsbDevice),
        (hackrfPositions devices)[k]? = some position →
        devices[position]? = some device →
          scan.list.serialNumbers k =
            if outs.strdup position then device.serialRead.map cutSerial
            else none :=
      fun k position device hk hdevice =>
        hserials.entry_of_not_stale hcount hk hdevice
          (hstale position device hdevice)
    constructor
    · intro k position device hk hdevice serial hserial
      rw [hentry k position device hk hdevice] at hserial
      split_ifs at hserial
      exact hserial
    · intro k position device hk hdevice hread
      rw [hentry k position device hk hdevice, hread]
      simp
    · intro j position device serial stack' other hj hdevice hother k hk
      obtain ⟨otherScan, rfl, hotherSerials⟩ :=
        serials_of_hackrfDeviceList hother
      exact hserials.independent hcount hstale hj hdevice hotherSerials hk

theorem serialsOwn_numbered :
    ∃ list, hackrfDeviceList .granted [.numbered [65]] (fun _ => 0) =
        some list ∧
      list.SerialsOwn .granted [.numbered [65]] := by
  have hlist := hackrfDeviceList_of_arrays
    (show ListOutcomes.granted.arrays = true from rfl) [.numbered [65]]
    (fun _ => 0)
  refine ⟨_, hlist, (serialsOwn_iff (by decide) hlist).mpr ?_⟩
  intro position device hdevice hstale
  have hmem : device ∈ [UsbDevice.numbered [65]] :=
    List.mem_of_getElem? hdevice
  rw [List.mem_singleton] at hmem
  have hunread := hstale.unread
  simp [hmem, UsbDevice.numbered, UsbDevice.serialRead, UsbDevice.answers]
    at hunread

/-- The second device is listed under the serial number of the first one. -/
theorem serialsOwn_fails_mute :
    ∃ list, hackrfDeviceList .granted [.numbered [65], .mute] (fun _ => 0) =
        some list ∧
      list.serialNumbers 1 = some [65] ∧
      ¬ list.SerialsOwn .granted [.numbered [65], .mute] := by
  refine ⟨_, rfl, by decide, fun hown => ?_⟩
  have hnull := hown.unread 1 1 .mute (by decide) rfl (by decide)
  exact absurd hnull (by decide)

end HackRF
