import HackRF.DeviceEnumeration

/-!
# The memory of the device list

`hackrf_device_list` allocates the list, three arrays and a copy of each serial
number, and libusb a list of its own; `hackrf_device_list_free` gives them
back.  A copy is reached through its slot only, so that the copies which a
later device has overwritten are lost.  This takes more than 256 devices.
-/

namespace HackRF

open HandleTrace

/-- The blocks of a device list, the copy of a serial number named by the
position of its device. -/
inductive ListBlock where
  | list
  | usbDevices
  | serialNumbers
  | usbBoardIds
  | usbDeviceIndex
  | serial (position : ℕ)
  deriving DecidableEq

/-- What the allocators and `libusb_get_device_list` grant. -/
structure ListAllocations where
  list : Bool
  usbDevices : Bool
  serialNumbers : Bool
  usbBoardIds : Bool
  usbDeviceIndex : Bool
  strdup : ℕ → Bool

namespace ListAllocations

/-- The arrays which `calloc` grants.  Without the devices of libusb their
number is negative and no array is as large. -/
def arrays (allocs : ListAllocations) : List ListBlock :=
  if allocs.usbDevices then
    (if allocs.serialNumbers then [.serialNumbers] else []) ++
      (if allocs.usbBoardIds then [.usbBoardIds] else []) ++
      (if allocs.usbDeviceIndex then [.usbDeviceIndex] else [])
  else []

def allArrays (allocs : ListAllocations) : Bool :=
  allocs.usbDevices && allocs.serialNumbers && allocs.usbBoardIds &&
    allocs.usbDeviceIndex

def outcomes (allocs : ListAllocations) : ListOutcomes where
  arrays := allocs.list && allocs.allArrays
  strdup := allocs.strdup

def libusbList (allocs : ListAllocations) : List ListBlock :=
  if allocs.usbDevices then [.usbDevices] else []

/-- The blocks which are allocated before the loop. -/
def fixed (allocs : ListAllocations) : List ListBlock :=
  .list :: allocs.libusbList ++ allocs.arrays

end ListAllocations

/-- The scan of the devices with the copy behind each slot, and what has been
allocated. -/
structure ListMemory where
  scan : DeviceScan
  serials : ℕ → Option ℕ
  trace : List (Action ListBlock)

namespace ListMemory

def initial (allocs : ListAllocations) (stack : SerialMemory) :
    ListMemory where
  scan := DeviceScan.initial stack
  serials := fun _ => none
  trace := allocs.fixed.map .acquire

def addDevice (outs : ListOutcomes) (i : ℕ) (device : UsbDevice)
    (mem : ListMemory) : ListMemory :=
  if device.isHackrf && device.answers then
    { scan := mem.scan.addDevice outs i device
      serials := Function.update mem.serials
        (mem.scan.list.devicecount % 256)
        (if outs.strdup i then some i else none)
      trace := mem.trace ++
        if outs.strdup i then [.acquire (.serial i)] else [] }
  else { mem with scan := mem.scan.addDevice outs i device }

def addDevices (outs : ListOutcomes) :
    ℕ → List UsbDevice → ListMemory → ListMemory
  | _, [], mem => mem
  | i, device :: rest, mem =>
      addDevices outs (i + 1) rest (mem.addDevice outs i device)

/-- The loop of `hackrf_device_list_free`. -/
def freeSerials (mem : ListMemory) : List (Action ListBlock) :=
  (List.range mem.scan.list.devicecount).flatMap fun i =>
    if (mem.scan.list.serialNumbers i).isSome then
      [.release ((mem.serials i).map .serial)]
    else []

end ListMemory

/-- `hackrf_device_list_free`; the null pointers which it frees are left
out. -/
def hackrfDeviceListFree (allocs : ListAllocations) (mem : ListMemory) :
    List (Action ListBlock) :=
  (allocs.libusbList.map fun block => .release (some block)) ++
    mem.freeSerials ++
    (allocs.arrays ++ [ListBlock.list]).map fun block => .release (some block)

/-- `hackrf_device_list` with what it allocates and frees; the list is `none`
if `NULL` is returned. -/
def hackrfDeviceListMemory (allocs : ListAllocations)
    (devices : List UsbDevice) (stack : SerialMemory) :
    Option ListMemory × List (Action ListBlock) :=
  let mem := ListMemory.initial allocs stack
  if allocs.list then
    if allocs.allArrays then
      let mem := mem.addDevices allocs.outcomes 0 devices
      (some mem, mem.trace)
    else (none, mem.trace ++ hackrfDeviceListFree allocs mem)
  else (none, [])

/-- The device at the position is a HackRF and opens to be asked for its
serial number. -/
def asksAt (devices : List UsbDevice) (position : ℕ) : Bool :=
  (devices[position]?).any fun device => device.isHackrf && device.answers

/-- The positions of the devices whose serial numbers are copied. -/
def copiedSerials (outs : ListOutcomes) (devices : List UsbDevice) : List ℕ :=
  (List.range devices.length).filter fun position =>
    asksAt devices position && outs.strdup position

/-- A later device which is asked as well takes the slot. -/
def Overtaken (devices : List UsbDevice) (k : ℕ) : Prop :=
  ∃ later position : ℕ, k < later ∧ later % 256 = k % 256 ∧
    (hackrfPositions devices)[later]? = some position ∧
    asksAt devices position = true

/-- The copy of a serial number is behind the slot. -/
def KeptAt (outs : ListOutcomes) (devices : List UsbDevice)
    (slot position : ℕ) : Prop :=
  position ∈ copiedSerials outs devices ∧
    ∃ k, (hackrfPositions devices)[k]? = some position ∧ k % 256 = slot ∧
      ¬ Overtaken devices k

/-- A serial number is copied to a slot which a later device takes. -/
def OverwrittenSerial (outs : ListOutcomes) (devices : List UsbDevice)
    (position : ℕ) : Prop :=
  position ∈ copiedSerials outs devices ∧
    ∃ k, (hackrfPositions devices)[k]? = some position ∧ Overtaken devices k

/-- With at most 256 devices each has a slot of its own. -/
theorem not_overtaken_of_count {devices : List UsbDevice} {k : ℕ}
    (hcount : (hackrfPositions devices).length ≤ 256) :
    ¬ Overtaken devices k := by
  rintro ⟨later, position, hlt, hslot, hlater, -⟩
  have hbound := (List.getElem?_eq_some_iff.mp hlater).1
  rw [Nat.mod_eq_of_lt (by omega), Nat.mod_eq_of_lt (by omega)] at hslot
  omega

/-! ## Seeing one more device -/

section Concat

variable {outs : ListOutcomes} {seen : List UsbDevice} {device : UsbDevice}
  {position k : ℕ}

theorem asksAt_concat_of_lt (hlt : position < seen.length) :
    asksAt (seen ++ [device]) position = asksAt seen position := by
  unfold asksAt
  rw [List.getElem?_append_left hlt]

theorem asksAt_concat_length :
    asksAt (seen ++ [device]) seen.length =
      (device.isHackrf && device.answers) := by
  simp [asksAt]

theorem copiedSerials_concat :
    copiedSerials outs (seen ++ [device]) = copiedSerials outs seen ++
      if device.isHackrf && device.answers && outs.strdup seen.length then
        [seen.length]
      else [] := by
  unfold copiedSerials
  rw [List.length_append, List.length_singleton, List.range_succ,
    List.filter_append]
  congr 1
  · apply List.filter_congr
    intro position hposition
    rw [asksAt_concat_of_lt (List.mem_range.mp hposition)]
  · rw [List.filter_singleton, asksAt_concat_length, Bool.cond_eq_ite]

theorem lt_of_mem_copiedSerials (hmem : position ∈ copiedSerials outs seen) :
    position < seen.length :=
  List.mem_range.mp (List.mem_of_mem_filter hmem)

theorem mem_copiedSerials_concat :
    position ∈ copiedSerials outs (seen ++ [device]) ↔
      position ∈ copiedSerials outs seen ∨
        (device.isHackrf = true ∧ device.answers = true ∧
          outs.strdup seen.length = true ∧ position = seen.length) := by
  rw [copiedSerials_concat, List.mem_append]
  split_ifs with hcopied
  · simp only [Bool.and_eq_true] at hcopied
    simp [hcopied]
  · simp only [Bool.and_eq_true, not_and] at hcopied
    simp only [List.not_mem_nil, or_false, iff_self_or]
    rintro ⟨hhackrf, hanswers, hstrdup, -⟩
    exact absurd hstrdup (hcopied ⟨hhackrf, hanswers⟩)

theorem getElem?_hackrfPositions_concat :
    (hackrfPositions (seen ++ [device]))[k]? = some position ↔
      (hackrfPositions seen)[k]? = some position ∨
        (device.isHackrf = true ∧ k = (hackrfPositions seen).length ∧
          position = seen.length) := by
  rw [hackrfPositions_concat]
  split_ifs with hhackrf
  · constructor
    · intro hk
      rcases getElem?_concat_cases hk with ⟨-, hold⟩ | ⟨hlast, hnew⟩
      · exact .inl hold
      · exact .inr ⟨hhackrf, hlast, hnew⟩
    · rintro (hold | ⟨-, rfl, rfl⟩)
      · rw [List.getElem?_append_left (List.getElem?_eq_some_iff.mp hold).1]
        exact hold
      · exact List.getElem?_concat_length
  · simp [hhackrf]

theorem overtaken_concat :
    Overtaken (seen ++ [device]) k ↔
      Overtaken seen k ∨
        (device.isHackrf = true ∧ device.answers = true ∧
          k < (hackrfPositions seen).length ∧
          (hackrfPositions seen).length % 256 = k % 256) := by
  constructor
  · rintro ⟨later, position, hlt, hslot, hlater, hasks⟩
    rcases getElem?_hackrfPositions_concat.mp hlater with
      hold | ⟨hhackrf, rfl, rfl⟩
    · rw [asksAt_concat_of_lt (lt_of_getElem?_hackrfPositions hold)] at hasks
      exact .inl ⟨later, position, hlt, hslot, hold, hasks⟩
    · rw [asksAt_concat_length, Bool.and_eq_true] at hasks
      exact .inr ⟨hhackrf, hasks.2, hlt, hslot⟩
  · rintro (⟨later, position, hlt, hslot, hold, hasks⟩ |
      ⟨hhackrf, hanswers, hlt, hslot⟩)
    · have hsame : asksAt (seen ++ [device]) position =
          asksAt seen position :=
        asksAt_concat_of_lt (lt_of_getElem?_hackrfPositions hold)
      exact ⟨later, position, hlt, hslot,
        getElem?_hackrfPositions_concat.mpr (.inl hold), hsame ▸ hasks⟩
    · refine ⟨_, _, hlt, hslot,
        getElem?_hackrfPositions_concat.mpr (.inr ⟨hhackrf, rfl, rfl⟩), ?_⟩
      rw [asksAt_concat_length, hhackrf, hanswers, Bool.and_self]

/-- The last device has not been overtaken yet. -/
theorem not_overtaken_length :
    ¬ Overtaken seen (hackrfPositions seen).length := by
  rintro ⟨later, position, hlt, -, hlater, -⟩
  have hbound := (List.getElem?_eq_some_iff.mp hlater).1
  omega

theorem keptAt_concat_of_not_asks {slot : ℕ}
    (hasks : (device.isHackrf && device.answers) = false) :
    KeptAt outs (seen ++ [device]) slot position ↔
      KeptAt outs seen slot position := by
  have hnew : device.isHackrf = true → device.answers ≠ true := by
    intro hhackrf
    simpa [hhackrf] using hasks
  have hcopied : position ∈ copiedSerials outs (seen ++ [device]) ↔
      position ∈ copiedSerials outs seen := by
    rw [mem_copiedSerials_concat]
    grind
  have hovertaken : ∀ k, Overtaken (seen ++ [device]) k ↔
      Overtaken seen k := by
    intro k
    rw [overtaken_concat]
    grind
  unfold KeptAt
  rw [hcopied]
  refine and_congr_right fun hmem => exists_congr fun k => ?_
  rw [hovertaken, getElem?_hackrfPositions_concat]
  have hlt := lt_of_mem_copiedSerials hmem
  grind

/-- The copy for a device which is asked replaces the one behind its slot. -/
theorem keptAt_concat_self (hhackrf : device.isHackrf = true)
    (hanswers : device.answers = true) :
    KeptAt outs (seen ++ [device])
        ((hackrfPositions seen).length % 256) position ↔
      outs.strdup seen.length = true ∧ position = seen.length := by
  constructor
  · rintro ⟨hcopied, k, hk, hslot, hlast⟩
    rcases getElem?_hackrfPositions_concat.mp hk with hold | ⟨-, -, rfl⟩
    · have hlt := (List.getElem?_eq_some_iff.mp hold).1
      exact absurd
        (overtaken_concat.mpr (.inr ⟨hhackrf, hanswers, hlt, hslot.symm⟩))
        hlast
    · rcases mem_copiedSerials_concat.mp hcopied with hold | hnew
      · exact absurd (lt_of_mem_copiedSerials hold) (lt_irrefl _)
      · exact hnew.2.2
  · rintro ⟨hstrdup, rfl⟩
    refine ⟨mem_copiedSerials_concat.mpr
        (.inr ⟨hhackrf, hanswers, hstrdup, rfl⟩), _,
      getElem?_hackrfPositions_concat.mpr (.inr ⟨hhackrf, rfl, rfl⟩), rfl, ?_⟩
    rw [overtaken_concat]
    rintro (hold | ⟨-, -, hlt, -⟩)
    · exact not_overtaken_length hold
    · exact lt_irrefl _ hlt

theorem keptAt_concat_of_ne {slot : ℕ}
    (hslot : slot ≠ (hackrfPositions seen).length % 256) :
    KeptAt outs (seen ++ [device]) slot position ↔
      KeptAt outs seen slot position := by
  constructor
  · rintro ⟨hcopied, k, hk, rfl, hlast⟩
    rcases getElem?_hackrfPositions_concat.mp hk with hold | ⟨-, rfl, -⟩
    · have hne : position ≠ seen.length :=
        (lt_of_getElem?_hackrfPositions hold).ne
      rcases mem_copiedSerials_concat.mp hcopied with hmem | hnew
      · exact ⟨hmem, k, hold, rfl,
          fun hovertaken => hlast (overtaken_concat.mpr (.inl hovertaken))⟩
      · exact absurd hnew.2.2.2 hne
    · exact absurd rfl hslot
  · rintro ⟨hcopied, k, hold, rfl, hlast⟩
    refine ⟨mem_copiedSerials_concat.mpr (.inl hcopied), k,
      getElem?_hackrfPositions_concat.mpr (.inl hold), rfl, ?_⟩
    rw [overtaken_concat]
    rintro (hovertaken | ⟨-, -, -, hsame⟩)
    · exact hlast hovertaken
    · exact hslot hsame.symm

end Concat

/-! ## The loop -/

namespace ListMemory

variable {allocs : ListAllocations} {seen : List UsbDevice} {mem : ListMemory}

theorem addDevice_scan (outs : ListOutcomes) (i : ℕ) (device : UsbDevice) :
    (mem.addDevice outs i device).scan = mem.scan.addDevice outs i device := by
  unfold addDevice
  split_ifs <;> rfl

theorem addDevices_scan (outs : ListOutcomes) (i : ℕ)
    (devices : List UsbDevice) :
    (mem.addDevices outs i devices).scan =
      mem.scan.addDevices outs i devices := by
  induction devices generalizing i mem with
  | nil => rfl
  | cons device rest ih =>
      unfold addDevices DeviceScan.addDevices
      rw [ih, addDevice_scan]

/-- The list while it is built: each slot has the copy for the last device
which has been asked there. -/
structure Building (allocs : ListAllocations) (seen : List UsbDevice)
    (mem : ListMemory) : Prop where
  slots : mem.scan.Slots seen
  entries : ∀ slot, (mem.scan.list.serialNumbers slot).isSome =
    (mem.serials slot).isSome
  serials : ∀ slot position, mem.serials slot = some position ↔
    KeptAt allocs.outcomes seen slot position
  trace : mem.trace = (allocs.fixed ++
    (copiedSerials allocs.outcomes seen).map ListBlock.serial).map .acquire

theorem Building.initial (allocs : ListAllocations) (stack : SerialMemory) :
    (ListMemory.initial allocs stack).Building allocs [] where
  slots := DeviceScan.Slots.initial stack
  entries := fun _ => rfl
  serials := by
    intro slot position
    constructor
    · intro hserial
      simp [ListMemory.initial] at hserial
    · rintro ⟨hcopied, -⟩
      simp [copiedSerials] at hcopied
  trace := by simp [ListMemory.initial, copiedSerials]

theorem addDevice_entries (outs : ListOutcomes) (i : ℕ) (device : UsbDevice)
    (hentries : ∀ slot, (mem.scan.list.serialNumbers slot).isSome =
      (mem.serials slot).isSome) (slot : ℕ) :
    ((mem.addDevice outs i device).scan.list.serialNumbers slot).isSome =
      ((mem.addDevice outs i device).serials slot).isSome := by
  rw [addDevice_scan]
  cases hhackrf : device.isHackrf with
  | false =>
      rw [DeviceScan.addDevice_of_not_isHackrf hhackrf]
      simpa [addDevice, hhackrf] using hentries slot
  | true =>
      rw [DeviceScan.addDevice_list outs i mem.scan hhackrf]
      cases hanswers : device.answers with
      | false => simpa [addDevice, hhackrf, hanswers] using hentries slot
      | true =>
          by_cases hslot : slot = mem.scan.list.devicecount % 256
          · subst slot
            cases hstrdup : outs.strdup i <;>
              simp [addDevice, hhackrf, hanswers, hstrdup,
                UsbDevice.serialEntry]
          · simpa [addDevice, hhackrf, hanswers, hslot] using hentries slot

theorem Building.addDevice (device : UsbDevice)
    (hbuilding : mem.Building allocs seen) :
    (mem.addDevice allocs.outcomes seen.length device).Building allocs
      (seen ++ [device]) where
  slots := by
    rw [addDevice_scan]
    exact hbuilding.slots.addDevice allocs.outcomes seen device
  entries := addDevice_entries allocs.outcomes seen.length device
    hbuilding.entries
  serials := by
    intro slot position
    cases hasks : device.isHackrf && device.answers with
    | false =>
        rw [keptAt_concat_of_not_asks hasks, ← hbuilding.serials]
        simp [ListMemory.addDevice, hasks]
    | true =>
        obtain ⟨hhackrf, hanswers⟩ := Bool.and_eq_true_iff.mp hasks
        have hupdated : (mem.addDevice allocs.outcomes seen.length
              device).serials =
            Function.update mem.serials ((hackrfPositions seen).length % 256)
              (if allocs.outcomes.strdup seen.length then some seen.length
                else none) := by
          rw [ListMemory.addDevice, if_pos hasks,
            hbuilding.slots.devicecount]
        rw [hupdated]
        by_cases hslot : slot = (hackrfPositions seen).length % 256
        · subst slot
          rw [Function.update_self, keptAt_concat_self hhackrf hanswers]
          rw [Option.ite_none_right_eq_some, Option.some.injEq]
          exact and_congr_right' eq_comm
        · rw [Function.update_of_ne hslot, keptAt_concat_of_ne hslot]
          exact hbuilding.serials slot position
  trace := by
    rw [copiedSerials_concat]
    have htrace := hbuilding.trace
    cases hasks : device.isHackrf && device.answers with
    | false => simpa [ListMemory.addDevice, hasks] using htrace
    | true =>
        cases hstrdup : allocs.outcomes.strdup seen.length <;>
          simp [ListMemory.addDevice, hasks, hstrdup, htrace]

theorem Building.addDevices (hbuilding : mem.Building allocs seen)
    (rest : List UsbDevice) :
    (mem.addDevices allocs.outcomes seen.length rest).Building allocs
      (seen ++ rest) := by
  induction rest generalizing seen mem with
  | nil =>
      rw [List.append_nil]
      exact hbuilding
  | cons device rest ih =>
      have hnext := ih (hbuilding.addDevice device)
      rw [List.length_append, List.append_assoc] at hnext
      exact hnext

/-- The copies which are still behind a slot. -/
def keptSerials (mem : ListMemory) : List ℕ :=
  (List.range mem.scan.list.devicecount).filterMap mem.serials

theorem Building.freeSerials (hbuilding : mem.Building allocs seen) :
    mem.freeSerials =
      (mem.keptSerials.map .serial).map fun block => .release (some block) := by
  unfold ListMemory.freeSerials keptSerials
  rw [List.map_map, List.map_filterMap, List.filterMap_eq_flatMap_toList]
  congr 1
  funext slot
  rw [hbuilding.entries]
  cases mem.serials slot <;> rfl

theorem nodup_hackrfPositions (devices : List UsbDevice) :
    (hackrfPositions devices).Nodup :=
  List.pairwise_findIdxs.imp Nat.ne_of_lt

theorem eq_of_getElem?_hackrfPositions {devices : List UsbDevice}
    {j k position : ℕ} (hj : (hackrfPositions devices)[j]? = some position)
    (hk : (hackrfPositions devices)[k]? = some position) : j = k :=
  (List.getElem?_inj (List.getElem?_eq_some_iff.mp hj).1
    (nodup_hackrfPositions devices)).mp (hj.trans hk.symm)

theorem Building.nodup_keptSerials (hbuilding : mem.Building allocs seen) :
    mem.keptSerials.Nodup := by
  apply List.Nodup.filterMap _ List.nodup_range
  intro slot slot' position hslot hslot'
  obtain ⟨-, k, hk, rfl, -⟩ := (hbuilding.serials slot position).mp hslot
  obtain ⟨-, k', hk', rfl, -⟩ := (hbuilding.serials slot' position).mp hslot'
  rw [eq_of_getElem?_hackrfPositions hk hk']

theorem Building.mem_keptSerials (hbuilding : mem.Building allocs seen)
    {position : ℕ} :
    position ∈ mem.keptSerials ↔
      ∃ slot, KeptAt allocs.outcomes seen slot position := by
  unfold keptSerials
  rw [List.mem_filterMap]
  constructor
  · rintro ⟨slot, -, hserial⟩
    exact ⟨slot, (hbuilding.serials slot position).mp hserial⟩
  · rintro ⟨slot, hkept⟩
    refine ⟨slot, ?_, (hbuilding.serials slot position).mpr hkept⟩
    obtain ⟨-, k, hk, rfl, -⟩ := hkept
    have hbound := (List.getElem?_eq_some_iff.mp hk).1
    rw [List.mem_range, hbuilding.slots.devicecount]
    exact (Nat.mod_le k 256).trans_lt hbound

/-- A copy is overwritten if it is not kept. -/
theorem overwrittenSerial_iff {outs : ListOutcomes}
    {devices : List UsbDevice} {position : ℕ} :
    OverwrittenSerial outs devices position ↔
      position ∈ copiedSerials outs devices ∧
        ¬ ∃ slot, KeptAt outs devices slot position := by
  refine and_congr_right fun hcopied => ?_
  constructor
  · rintro ⟨k, hk, hovertaken⟩ ⟨slot, -, k', hk', -, hlast⟩
    rw [eq_of_getElem?_hackrfPositions hk' hk] at hlast
    exact hlast hovertaken
  · intro hlost
    have hlt := lt_of_mem_copiedSerials hcopied
    have hasks := (List.mem_filter.mp hcopied).2
    simp only [asksAt, List.getElem?_eq_getElem hlt, Option.any_some,
      Bool.and_eq_true] at hasks
    obtain ⟨k, hk⟩ := exists_slot (List.getElem?_eq_getElem hlt) hasks.1.1
    by_contra hkept
    exact hlost ⟨k % 256, hcopied, k, hk, rfl,
      fun hovertaken => hkept ⟨k, hk, hovertaken⟩⟩

end ListMemory

/-! ## Freeing the list -/

namespace ListAllocations

variable {allocs : ListAllocations} {positions : List ℕ}

theorem nodup_fixed_append (hpositions : positions.Nodup) :
    (allocs.fixed ++ positions.map ListBlock.serial).Nodup := by
  refine List.nodup_append.mpr ⟨?_, hpositions.map ?_, ?_⟩
  · obtain ⟨list, usbDevices, serials, ids, index, strdup⟩ := allocs
    cases usbDevices <;> cases serials <;> cases ids <;> cases index <;>
      simp [fixed, libusbList, arrays]
  · intro position position' hsame
    exact ListBlock.serial.inj hsame
  · intro block hfixed other hserial heq
    obtain ⟨position, -, rfl⟩ := List.mem_map.mp hserial
    subst heq
    simp only [fixed, libusbList, arrays] at hfixed
    grind

end ListAllocations

namespace ListMemory

variable {allocs : ListAllocations} {seen : List UsbDevice} {mem : ListMemory}

/-- The blocks which `hackrf_device_list_free` releases, in their order. -/
def released (allocs : ListAllocations) (mem : ListMemory) : List ListBlock :=
  allocs.libusbList ++ mem.keptSerials.map .serial ++
    (allocs.arrays ++ [.list])

theorem Building.hackrfDeviceListFree (hbuilding : mem.Building allocs seen) :
    hackrfDeviceListFree allocs mem =
      (released allocs mem).map fun block => .release (some block) := by
  unfold HackRF.hackrfDeviceListFree released
  rw [hbuilding.freeSerials]
  simp only [List.map_append]

theorem released_perm (allocs : ListAllocations) (mem : ListMemory) :
    (released allocs mem).Perm
      (allocs.fixed ++ mem.keptSerials.map .serial) := by
  apply List.perm_iff_count.mpr
  intro block
  simp only [released, ListAllocations.fixed, List.count_append,
    List.count_cons, List.count_nil, List.cons_append]
  omega

/-- `hackrf_device_list_free` releases each block once and misses the copies
which have been overwritten. -/
theorem Building.run_free (hbuilding : mem.Building allocs seen) :
    ∃ lost, EventRun.run HandleTrace.step []
        (mem.trace ++ HackRF.hackrfDeviceListFree allocs mem) = some lost ∧
      ∀ block, block ∈ lost ↔ ∃ position, block = .serial position ∧
        OverwrittenSerial allocs.outcomes seen position := by
  have hnodup : (allocs.fixed ++
      (copiedSerials allocs.outcomes seen).map ListBlock.serial).Nodup :=
    ListAllocations.nodup_fixed_append (List.nodup_range.filter _)
  have hreleased : (released allocs mem).Nodup :=
    (released_perm allocs mem).nodup_iff.mpr
      (ListAllocations.nodup_fixed_append hbuilding.nodup_keptSerials)
  have hheld : ((allocs.fixed ++ (copiedSerials allocs.outcomes seen).map
      ListBlock.serial).reverse ++ []).Nodup := by
    rw [List.append_nil]
    exact List.nodup_reverse.mpr hnodup
  have hkept : ∀ position, position ∈ mem.keptSerials →
      position ∈ copiedSerials allocs.outcomes seen := by
    intro position hposition
    obtain ⟨slot, hcopied, -⟩ := hbuilding.mem_keptSerials.mp hposition
    exact hcopied
  have hmem : ∀ block, block ∈ released allocs mem ↔
      block ∈ allocs.fixed ++ mem.keptSerials.map ListBlock.serial :=
    fun block => (released_perm allocs mem).mem_iff
  have hsubset : released allocs mem ⊆
      (allocs.fixed ++ (copiedSerials allocs.outcomes seen).map
        ListBlock.serial).reverse ++ [] := by
    intro block hblock
    rw [hmem] at hblock
    grind
  rw [EventRun.run_append, hbuilding.trace, HandleTrace.run_acquires,
    Option.bind_some, hbuilding.hackrfDeviceListFree,
    HandleTrace.run_releases hheld hreleased hsubset]
  refine ⟨_, rfl, fun block => ?_⟩
  simp only [List.append_nil, List.mem_filter, List.mem_reverse,
    decide_not, Bool.not_eq_true', decide_eq_false_iff_not, hmem,
    overwrittenSerial_iff, ← hbuilding.mem_keptSerials]
  have hdisjoint := List.nodup_append.mp hnodup
  grind

end ListMemory

/-- `hackrf_device_list` frees everything before it returns `NULL`.  A list
which it returns is given back as a whole by `hackrf_device_list_free`, each
block once, but for the serial numbers of devices whose slot a later device has
taken; there are none as long as the slots fit into 8 bits. -/
theorem hackrfDeviceListMemory_frees (allocs : ListAllocations)
    (devices : List UsbDevice) (stack : SerialMemory) :
    (hackrfDeviceListMemory allocs devices stack).1.map (·.scan.list) =
        hackrfDeviceList allocs.outcomes devices stack ∧
      match hackrfDeviceListMemory allocs devices stack with
      | (none, trace) => EventRun.run HandleTrace.step [] trace = some []
      | (some mem, trace) =>
          ∃ lost, EventRun.run HandleTrace.step []
              (trace ++ hackrfDeviceListFree allocs mem) = some lost ∧
            (∀ block, block ∈ lost ↔ ∃ position, block = .serial position ∧
              OverwrittenSerial allocs.outcomes devices position) ∧
            ((hackrfPositions devices).length ≤ 256 → lost = []) := by
  have hinitial := ListMemory.Building.initial allocs stack
  unfold hackrfDeviceListMemory hackrfDeviceList
  cases hlist : allocs.list with
  | false => simp [ListAllocations.outcomes, hlist]
  | true =>
      cases harrays : allocs.allArrays with
      | false =>
          obtain ⟨lost, hrun, hlost⟩ := hinitial.run_free
          have hnone : lost = [] := by
            apply List.eq_nil_iff_forall_not_mem.mpr
            intro block hblock
            obtain ⟨position, -, hcopied, -⟩ := (hlost block).mp hblock
            simp [copiedSerials] at hcopied
          simpa [ListAllocations.outcomes, hlist, harrays, hnone] using hrun
      | true =>
          have hbuilding := hinitial.addDevices devices
          rw [List.nil_append, List.length_nil] at hbuilding
          obtain ⟨lost, hrun, hlost⟩ := hbuilding.run_free
          refine ⟨?_, lost, hrun, hlost, fun hcount => ?_⟩
          · simp [ListAllocations.outcomes, hlist, harrays,
              ListMemory.addDevices_scan, ListMemory.initial]
          · apply List.eq_nil_iff_forall_not_mem.mpr
            intro block hblock
            obtain ⟨position, -, -, k, -, hovertaken⟩ :=
              (hlost block).mp hblock
            exact not_overtaken_of_count hcount hovertaken

end HackRF
