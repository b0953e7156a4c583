import HackRF.UsbDevices

/-!
# Opening a device by its serial number

`hackrf_open_usb` compares the end of each serial number with the desired one.
The comparison starts as many characters before the end as the desired string
has, whether or not the serial number is that long, and a negative error code
passes for its length.
-/

namespace HackRF

/-- The device is a HackRF whose serial number was read and ends with the
desired string. -/
def UsbDevice.matchesSerial (desired : List UInt8) (device : UsbDevice) :
    Bool :=
  device.isHackrf &&
    match device.serialRead with
    | some chars => decide (desired <:+ chars)
    | none => false

/-- The array is not left, the device selected is the first one that matches,
and only its handle stays open. -/
structure OpenUsbResult.SelectsBySuffix (desired : List UInt8)
    (devices : List UsbDevice) (result : OpenUsbResult) : Prop where
  inBounds : ∀ index ∈ result.accesses, 0 ≤ index ∧ index < serialNumberSize
  selects : result.handle =
    devices.findIdx? (UsbDevice.matchesSerial desired)
  closesOthers : EventRun.run HandleTrace.step [] result.trace =
    some (result.handle.toList.map UsbResource.handle)

/-- The serial number of the device can be read and is at least as long as the
desired one; if it is longer than 32 characters, its end and the end of its
first 32 characters are equally good. -/
def UsbDevice.Legible (desired : List UInt8) (device : UsbDevice) : Prop :=
  ∃ chars, device.serial = .string chars ∧ desired.length ≤ chars.length ∧
    (desired <:+ chars.take usbMaxSerialLength ↔ desired <:+ chars)

/-- Every device which is asked for its serial number before one matches, and
the one which does, is legible. -/
def LegibleUpToMatch (desired : List UInt8) (devices : List UsbDevice) :
    Prop :=
  ∀ before device after, devices = before ++ device :: after →
    (∀ earlier ∈ before, earlier.matchesSerial desired = false) →
    device.isHackrf = true → device.answers = true → device.Legible desired

theorem legibleUpToMatch_cons {desired : List UInt8} {device : UsbDevice}
    {rest : List UsbDevice} :
    LegibleUpToMatch desired (device :: rest) ↔
      (device.isHackrf = true → device.answers = true →
        device.Legible desired) ∧
      (device.matchesSerial desired = false →
        LegibleUpToMatch desired rest) := by
  constructor
  · intro hlegible
    constructor
    · exact hlegible [] device rest rfl (by simp)
    · intro hother before next after hrest hbefore
      apply hlegible (device :: before) next after (by rw [hrest]; rfl)
      simpa [hother] using hbefore
  · rintro ⟨hhead, htail⟩ before next after hdevices hbefore
    cases before with
    | nil =>
        obtain ⟨rfl, -⟩ := List.cons.inj hdevices
        exact hhead
    | cons first before =>
        obtain ⟨rfl, hrest⟩ := List.cons.inj hdevices
        rw [List.forall_mem_cons] at hbefore
        exact htail hbefore.1 before next after hrest hbefore.2

/-! ## The comparison -/

theorem strncmp_equal_iff (mem : SerialMemory) (index : ℤ)
    (chars : List UInt8) :
    (strncmp mem index chars).1 = true ↔
      (List.range chars.length).map (fun i : ℕ => mem (index + i)) =
        chars := by
  induction chars generalizing index with
  | nil => simp [strncmp]
  | cons char rest ih =>
      have hshift : (List.range rest.length).map
          ((fun i : ℕ => mem (index + i)) ∘ Nat.succ) =
            (List.range rest.length).map
              (fun i : ℕ => mem (index + 1 + i)) := by
        apply List.map_congr_left
        intro i _
        simp only [Function.comp_apply, Nat.cast_succ]
        congr 1
        omega
      rw [List.length_cons, List.range_succ_eq_map, List.map_cons,
        List.map_map, hshift, strncmp]
      by_cases hchar : mem index = char
      · simpa [hchar] using ih (index + 1)
      · simp [hchar]

theorem strncmp_reads_bounds {mem : SerialMemory} {index read : ℤ}
    {chars : List UInt8} (hread : read ∈ (strncmp mem index chars).2) :
    index ≤ read ∧ read < index + chars.length := by
  induction chars generalizing index with
  | nil => simp [strncmp] at hread
  | cons char rest ih =>
      have hbounds : read = index ∨
          read ∈ (strncmp mem (index + 1) rest).2 := by
        rw [strncmp] at hread
        split_ifs at hread
        · simpa using hread
        · left
          simpa using hread
      rw [List.length_cons, Nat.cast_succ]
      rcases hbounds with rfl | hrest
      · omega
      · have := ih hrest
        omega

theorem mem_strncmp_reads {mem : SerialMemory} {index : ℤ}
    {chars : List UInt8} (hchars : chars ≠ []) :
    index ∈ (strncmp mem index chars).2 := by
  cases chars with
  | nil => exact absurd rfl hchars
  | cons char rest =>
      rw [strncmp]
      split_ifs <;> simp

section Compare

variable {desired chars : List UInt8} {mem : SerialMemory}

/-- Where the comparison begins, and the string it leaves in the array. -/
theorem compareSerial_string (desired chars : List UInt8)
    (mem : SerialMemory) :
    ∃ (length : ℕ) (mem' : SerialMemory),
      length = min chars.length usbMaxSerialLength ∧
      compareSerial desired (.string chars) mem =
        ((strncmp mem' (length - desired.length) desired).1,
          (length : ℤ) :: (strncmp mem' (length - desired.length) desired).2,
          mem') ∧
      ∀ i : ℕ, i < length → mem' i = chars.getD i 0 := by
  have hlength : (if (usbMaxSerialLength : ℤ) ≤
        (min chars.length (serialNumberSize - 1) : ℕ)
      then (usbMaxSerialLength : ℤ)
      else (min chars.length (serialNumberSize - 1) : ℕ)) =
        (min chars.length usbMaxSerialLength : ℕ) := by
    unfold serialNumberSize usbMaxSerialLength
    split_ifs <;> omega
  unfold compareSerial getStringDescriptorAscii
  dsimp only
  rw [hlength]
  refine ⟨_, _, rfl, rfl, ?_⟩
  intro i hi
  rw [Function.update_of_ne (by omega)]
  refine getStringDescriptorAscii_of_lt ?_ mem
  unfold serialNumberSize usbMaxSerialLength at *
  omega

theorem compareSerial_of_legible (hmax : desired.length ≤ usbMaxSerialLength)
    (hlong : desired.length ≤ chars.length) (mem : SerialMemory) :
    ((compareSerial desired (.string chars) mem).1 = true ↔
        desired <:+ chars.take usbMaxSerialLength) ∧
      ∀ index ∈ (compareSerial desired (.string chars) mem).2.1,
        0 ≤ index ∧ index < serialNumberSize := by
  obtain ⟨length, mem', hlength, hcompare, hmem⟩ :=
    compareSerial_string desired chars mem
  have hle : desired.length ≤ length := by omega
  have htake : (chars.take usbMaxSerialLength).length = length := by
    rw [List.length_take, hlength, Nat.min_comm]
  have hread : (List.range desired.length).map
      (fun i : ℕ => mem' (length - desired.length + i)) =
        (chars.take usbMaxSerialLength).drop (length - desired.length) := by
    have hsum : length - desired.length + desired.length = length :=
      Nat.sub_add_cancel hle
    have hmin : chars.take length = chars.take usbMaxSerialLength := by
      rw [hlength, Nat.min_comm, ← List.take_eq_take_min]
    rw [← hmin, ← hsum, Nat.add_sub_cancel, ← map_range_getD (by omega) 0]
    apply List.map_congr_left
    intro i hi
    rw [List.mem_range] at hi
    rw [← hmem _ (by omega)]
    congr 1
    omega
  rw [hcompare]
  constructor
  · rw [strncmp_equal_iff, hread, List.suffix_iff_eq_drop, htake]
    exact eq_comm
  · intro index hindex
    unfold serialNumberSize usbMaxSerialLength at *
    rcases List.mem_cons.mp hindex with rfl | hmem
    · omega
    · have hbounds := strncmp_reads_bounds hmem
      omega

/-- An error code as the length, and a serial number which is too short, lead
out of the array. -/
theorem compareSerial_out_of_bounds {reply : StringReply}
    (hreply : ∀ chars, reply = .string chars → chars.length < desired.length)
    (mem : SerialMemory) :
    ∃ index ∈ (compareSerial desired reply mem).2.1, index < 0 := by
  cases reply with
  | error code negative =>
      refine ⟨code, ?_, negative⟩
      unfold compareSerial getStringDescriptorAscii usbMaxSerialLength
      dsimp only
      rw [if_neg (by omega)]
      exact List.mem_cons_self
  | string chars =>
      have hshort := hreply chars rfl
      obtain ⟨length, mem', hlength, hcompare, -⟩ :=
        compareSerial_string desired chars mem
      have hne : desired ≠ [] := by
        rintro rfl
        simp at hshort
      rw [hcompare]
      refine ⟨_, List.mem_cons_of_mem _ (mem_strncmp_reads hne), ?_⟩
      omega

end Compare

/-! ## The loop -/

section Loop

variable {desired : List UInt8} {device : UsbDevice}

theorem matchesSerial_of_not_asked (desired : List UInt8)
    (hasked : (device.isHackrf && device.answers) = false) :
    device.matchesSerial desired = false := by
  unfold UsbDevice.matchesSerial UsbDevice.serialRead
  cases hhackrf : device.isHackrf with
  | false => rfl
  | true =>
      rw [hhackrf, Bool.true_and] at hasked
      simp [hasked]

theorem matchesSerial_of_string (desired : List UInt8) {chars : List UInt8}
    (hasked : (device.isHackrf && device.answers) = true)
    (hserial : device.serial = .string chars) :
    device.matchesSerial desired = decide (desired <:+ chars) := by
  rw [Bool.and_eq_true] at hasked
  simp [UsbDevice.matchesSerial, UsbDevice.serialRead, hasked, hserial]

theorem openUsbLoop_not_asked
    (hasked : (device.isHackrf && device.answers) = false) (i : ℕ)
    (rest : List UsbDevice) (mem : SerialMemory) :
    openUsbLoop desired i (device :: rest) mem =
      openUsbLoop desired (i + 1) rest mem := by
  rw [openUsbLoop, if_neg (by simp [hasked])]

theorem openUsbLoop_asked
    (hasked : (device.isHackrf && device.answers) = true) (i : ℕ)
    (rest : List UsbDevice) (mem : SerialMemory) :
    openUsbLoop desired i (device :: rest) mem =
      let compared := compareSerial desired device.serial mem
      let result := openUsbLoop desired (i + 1) rest compared.2.2
      if compared.1 then ⟨some i, compared.2.1, [.acquire (.handle i)]⟩
      else ⟨result.handle, compared.2.1 ++ result.accesses,
        .acquire (.handle i) :: .release (some (.handle i)) ::
          result.trace⟩ := by
  rw [openUsbLoop, if_pos hasked]

theorem openUsbLoop_handle_ge {i position : ℕ} {devices : List UsbDevice}
    {mem : SerialMemory}
    (hhandle : (openUsbLoop desired i devices mem).handle = some position) :
    i ≤ position := by
  induction devices generalizing i mem with
  | nil => simp [openUsbLoop] at hhandle
  | cons device rest ih =>
      cases hasked : device.isHackrf && device.answers with
      | false =>
          rw [openUsbLoop_not_asked hasked] at hhandle
          exact Nat.le_of_succ_le (ih hhandle)
      | true =>
          rw [openUsbLoop_asked hasked] at hhandle
          dsimp only at hhandle
          split_ifs at hhandle
          · exact (Option.some.inj hhandle).le
          · exact Nat.le_of_succ_le (ih hhandle)

/-- Whatever is compared, a handle which is not returned is closed. -/
theorem openUsbLoop_trace (desired : List UInt8) (i : ℕ) (devices : List UsbDevice)
    (mem : SerialMemory) (held : List UsbResource) :
    EventRun.run HandleTrace.step held (openUsbLoop desired i devices mem).trace =
      some ((openUsbLoop desired i devices mem).handle.toList.map
        UsbResource.handle ++ held) := by
  induction devices generalizing i mem with
  | nil => simp [openUsbLoop]
  | cons device rest ih =>
      cases hasked : device.isHackrf && device.answers with
      | false =>
          rw [openUsbLoop_not_asked hasked]
          exact ih (i + 1) mem
      | true =>
          rw [openUsbLoop_asked hasked]
          dsimp only
          split_ifs
          · rfl
          · simpa [HandleTrace.step] using ih (i + 1) _

structure LoopSelects (desired : List UInt8) (i : ℕ)
    (devices : List UsbDevice) (result : OpenUsbResult) : Prop where
  inBounds : ∀ index ∈ result.accesses, 0 ≤ index ∧ index < serialNumberSize
  selects : result.handle =
    (devices.findIdx? (UsbDevice.matchesSerial desired)).map (· + i)

theorem findIdx?_cons_of_not {rest : List UsbDevice} (i : ℕ)
    (hother : device.matchesSerial desired = false) :
    ((device :: rest).findIdx? (UsbDevice.matchesSerial desired)).map (· + i) =
      (rest.findIdx? (UsbDevice.matchesSerial desired)).map (· + (i + 1)) := by
  rw [List.findIdx?_cons, hother, if_neg (by simp), Option.map_map]
  congr 1
  funext k
  simp only [Function.comp_apply]
  omega

theorem loopSelects_cons_of_legible
    (hmax : desired.length ≤ usbMaxSerialLength)
    (hasked : (device.isHackrf && device.answers) = true)
    (hlegible : device.Legible desired) (i : ℕ) (rest : List UsbDevice)
    (mem : SerialMemory) :
    ∃ mem', LoopSelects desired i (device :: rest)
        (openUsbLoop desired i (device :: rest) mem) ↔
      device.matchesSerial desired = false →
        LoopSelects desired (i + 1) rest
          (openUsbLoop desired (i + 1) rest mem') := by
  obtain ⟨chars, hserial, hlong, hsuffix⟩ := hlegible
  have hmatches := matchesSerial_of_string desired hasked hserial
  obtain ⟨hequal, hbounds⟩ := compareSerial_of_legible hmax hlong mem
  rw [hsuffix] at hequal
  refine ⟨(compareSerial desired (.string chars) mem).2.2, ?_⟩
  rw [openUsbLoop_asked hasked, hserial]
  dsimp only
  by_cases hfound : desired <:+ chars
  · rw [if_pos (hequal.mpr hfound)]
    refine iff_of_true ⟨hbounds, ?_⟩ ?_
    · simp [List.findIdx?_cons, hmatches, hfound]
    · intro hother
      simp [hmatches, hfound] at hother
  · have hother : device.matchesSerial desired = false := by
      simp [hmatches, hfound]
    rw [if_neg (by simpa [hequal] using hfound)]
    constructor
    · intro hselects _
      constructor
      · intro index hindex
        exact hselects.inBounds index (List.mem_append_right _ hindex)
      · rw [← findIdx?_cons_of_not i hother]
        exact hselects.selects
    · intro hrest
      have hrest := hrest hother
      constructor
      · intro index hindex
        rcases List.mem_append.mp hindex with hhere | hlater
        · exact hbounds index hhere
        · exact hrest.inBounds index hlater
      · rw [findIdx?_cons_of_not i hother]
        exact hrest.selects

theorem not_loopSelects_cons
    (hmax : desired.length ≤ usbMaxSerialLength)
    (hasked : (device.isHackrf && device.answers) = true)
    (hlegible : ¬ device.Legible desired) (i : ℕ) (rest : List UsbDevice)
    (mem : SerialMemory) :
    ¬ LoopSelects desired i (device :: rest)
      (openUsbLoop desired i (device :: rest) mem) := by
  intro hselects
  have haccesses : ∀ index ∈ (compareSerial desired device.serial mem).2.1,
      0 ≤ index := by
    intro index hindex
    apply (hselects.inBounds index _).1
    rw [openUsbLoop_asked hasked]
    dsimp only
    split_ifs
    · exact hindex
    · exact List.mem_append_left _ hindex
  by_cases hshort : ∀ chars, device.serial = .string chars →
      chars.length < desired.length
  · obtain ⟨index, hindex, hneg⟩ := compareSerial_out_of_bounds hshort mem
    exact absurd (haccesses index hindex) (by omega)
  · push Not at hshort
    obtain ⟨chars, hserial, hlong⟩ := hshort
    have hmatches :=
      matchesSerial_of_string desired hasked hserial
    obtain ⟨hequal, -⟩ := compareSerial_of_legible hmax hlong mem
    have hdiffers : ¬ (desired <:+ chars.take usbMaxSerialLength ↔
        desired <:+ chars) :=
      fun hsuffix => hlegible ⟨chars, hserial, hlong, hsuffix⟩
    have hhandle := hselects.selects
    rw [openUsbLoop_asked hasked, hserial] at hhandle
    dsimp only at hhandle
    by_cases hfound : desired <:+ chars
    · have hother : (compareSerial desired (.string chars) mem).1 ≠ true := by
        simpa [hequal, hfound] using hdiffers
      rw [if_neg hother] at hhandle
      simp only [List.findIdx?_cons, hmatches, hfound, decide_true, ↓reduceIte,
        Option.map_some, Nat.zero_add] at hhandle
      exact absurd (openUsbLoop_handle_ge hhandle) (by omega)
    · have hwrong : (compareSerial desired (.string chars) mem).1 = true := by
        simpa [hequal, hfound] using hdiffers
      have hother : device.matchesSerial desired = false := by
        simp [hmatches, hfound]
      rw [if_pos hwrong, findIdx?_cons_of_not i hother] at hhandle
      obtain ⟨k, -, hk⟩ := Option.map_eq_some_iff.mp hhandle.symm
      omega

theorem loopSelects_iff (hmax : desired.length ≤ usbMaxSerialLength) (i : ℕ)
    (devices : List UsbDevice) (mem : SerialMemory) :
    LoopSelects desired i devices (openUsbLoop desired i devices mem) ↔
      LegibleUpToMatch desired devices := by
  induction devices generalizing i mem with
  | nil =>
      refine iff_of_true ⟨by simp [openUsbLoop], rfl⟩ ?_
      intro before device after hdevices
      simp at hdevices
  | cons device rest ih =>
      rw [legibleUpToMatch_cons]
      cases hasked : device.isHackrf && device.answers with
      | false =>
          have hother := matchesSerial_of_not_asked desired hasked
          have hnone : device.isHackrf = true → ¬ device.answers = true := by
            simpa using hasked
          rw [openUsbLoop_not_asked hasked]
          have hsame : LoopSelects desired i (device :: rest)
              (openUsbLoop desired (i + 1) rest mem) ↔
                LoopSelects desired (i + 1) rest
                  (openUsbLoop desired (i + 1) rest mem) := by
            constructor
            · intro hselects
              exact ⟨hselects.inBounds,
                findIdx?_cons_of_not i hother ▸ hselects.selects⟩
            · intro hselects
              exact ⟨hselects.inBounds,
                (findIdx?_cons_of_not i hother).symm ▸ hselects.selects⟩
          rw [hsame, ih]
          constructor
          · intro hrest
            exact ⟨fun hhackrf hanswers => absurd hanswers (hnone hhackrf),
              fun _ => hrest⟩
          · intro hlegible
            exact hlegible.2 hother
      | true =>
          have hpair : device.isHackrf = true ∧ device.answers = true := by
            simpa using hasked
          by_cases hlegible : device.Legible desired
          · obtain ⟨mem', hstep⟩ :=
              loopSelects_cons_of_legible hmax hasked hlegible i rest mem
            rw [hstep, ih]
            simp [hlegible]
          · refine iff_of_false
              (not_loopSelects_cons hmax hasked hlegible i rest mem) ?_
            intro hboth
            exact hlegible (hboth.1 hpair.1 hpair.2)

end Loop

/-- `hackrf_open_usb` stays in its buffer, selects the first device whose serial
number ends with the desired string and closes the others exactly if all
devices up to that one are legible. -/
theorem selectsBySuffix_iff {desired : List UInt8}
    (hmax : desired.length ≤ 32) (devices : List UsbDevice)
    (stack : SerialMemory) :
    (hackrfOpenUsb (some desired) devices stack).SelectsBySuffix desired
        devices ↔
      LegibleUpToMatch desired devices := by
  have hlong : ¬ ∃ chars ∈ some desired, 32 < chars.length := by
    simpa using hmax
  rw [← loopSelects_iff hmax 0 devices stack]
  unfold hackrfOpenUsb
  rw [if_neg hlong]
  have hzero : (devices.findIdx? (UsbDevice.matchesSerial desired)).map
      (· + 0) = devices.findIdx? (UsbDevice.matchesSerial desired) := by
    simp
  constructor
  · intro hselects
    exact ⟨hselects.inBounds, hselects.selects.trans hzero.symm⟩
  · intro hselects
    refine ⟨hselects.inBounds, hselects.selects.trans hzero, ?_⟩
    have htrace := openUsbLoop_trace desired 0 devices stack [.deviceList]
    dsimp only
    rw [List.cons_append, EventRun.run_cons, HandleTrace.step,
      Option.bind_some, EventRun.run_append, htrace]
    cases (openUsbLoop desired 0 devices stack).handle with
    | none => rfl
    | some position => simp [HandleTrace.step]

theorem selectsBySuffix_numbered :
    (hackrfOpenUsb (some [66, 67]) [.numbered [65, 66, 67]]
      (fun _ => 0)).SelectsBySuffix [66, 67] [.numbered [65, 66, 67]] := by
  apply (selectsBySuffix_iff (by decide) _ _).mpr
  rw [legibleUpToMatch_cons]
  constructor
  · intro _ _
    exact ⟨[65, 66, 67], rfl, by decide, by decide⟩
  · intro hother
    exact absurd hother (by decide)

/-- The only device answers with an error, and the `NUL` is written in front of
the array. -/
theorem selectsBySuffix_fails_mute :
    -1 ∈ (hackrfOpenUsb (some [65]) [.mute] (fun _ => 0)).accesses ∧
      ¬ (hackrfOpenUsb (some [65]) [.mute]
        (fun _ => 0)).SelectsBySuffix [65] [.mute] := by
  refine ⟨by decide, fun hselects => ?_⟩
  have hbounds := hselects.inBounds (-1) (by decide)
  exact absurd hbounds.1 (by decide)

end HackRF
