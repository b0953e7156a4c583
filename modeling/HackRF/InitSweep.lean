import HackRF.HostByteOrder
import HackRF.SweepService

/-!
# The request which starts a sweep

`hackrf_init_sweep` checks its arguments, fills an array of 49 bytes by hand
and sends its beginning with one vendor request; the number of bytes to capture
travels in the two setup words of the request.  Read as little-endian integers,
the bytes and the words give back the arguments.
-/

namespace HackRF.Sweep

open ByteMemory

def SweepStyle.code : SweepStyle → UInt32
  | .linear => 0
  | .interleaved => 1

/-- The arguments of `hackrf_init_sweep`; the enumeration is passed as an
integer. -/
structure InitSweepArgs where
  frequencyList : ℕ → UInt16
  numRanges : Int32
  numBytes : UInt32
  stepWidth : UInt32
  offset : UInt32
  style : UInt32

/-- `USB_API_REQUIRED` before an outgoing request; a version that cannot be
read stays at zero. -/
def usbApiRequiredOut (usb : Usb) (version : ℕ)
    (call : ControlState → HackrfError × ControlState) (s : ControlState) :
    HackrfError × ControlState :=
  match usb.deviceDescriptor with
  | .ok usbVersion =>
      if usbVersion < version then (.usbApiVersion, s) else call s
  | .error result =>
      let s := { s with lastLibusbError := result }
      if 0 < version then (.usbApiVersion, s) else call s

namespace InitSweepArgs

variable (args : InitSweepArgs)

def dataSize : ℕ := 9 + maxSweepRanges * 2 * 2

def size : ℤ := 9 + args.numRanges.toInt * 2 * 2

/-- The assignments to elements of `data`, in order. -/
def writes : List (ℕ × UInt8) :=
  [(0, (args.stepWidth &&& 0xff).toUInt8),
    (1, ((args.stepWidth >>> 8) &&& 0xff).toUInt8),
    (2, ((args.stepWidth >>> 16) &&& 0xff).toUInt8),
    (3, ((args.stepWidth >>> 24) &&& 0xff).toUInt8),
    (4, (args.offset &&& 0xff).toUInt8),
    (5, ((args.offset >>> 8) &&& 0xff).toUInt8),
    (6, ((args.offset >>> 16) &&& 0xff).toUInt8),
    (7, ((args.offset >>> 24) &&& 0xff).toUInt8),
    (8, args.style.toUInt8)] ++
  (List.range (args.numRanges.toInt * 2).toNat).flatMap fun i =>
    [(9 + i * 2, (args.frequencyList i &&& 0xff).toUInt8),
      (10 + i * 2, ((args.frequencyList i >>> 8) &&& 0xff).toUInt8)]

/-- The request, with what the stack held where `data` is. -/
def request (stack : Memory) : ControlOut where
  request := .initSweep
  value := (args.numBytes &&& 0xffff).toNat
  index := ((args.numBytes >>> 16) &&& 0xffff).toNat
  data := image args.size.toNat (writeAll args.writes stack)

end InitSweepArgs

def hackrfInitSweep (usb : Usb) (stack : Memory) (args : InitSweepArgs) :
    ControlState → HackrfError × ControlState :=
  usbApiRequiredOut usb 0x0102 fun s =>
    if args.numRanges < 1 ∨ args.numRanges > Int32.ofNat maxSweepRanges then
      (.invalidParam, s)
    else if args.numBytes % UInt32.ofNat bytesPerBlock ≠ 0 then
      (.invalidParam, s)
    else if UInt32.ofNat bytesPerBlock > args.numBytes then (.invalidParam, s)
    else if 1 > args.stepWidth then (.invalidParam, s)
    else if SweepStyle.interleaved.code < args.style then (.invalidParam, s)
    else sendRequest usb (· < args.size) (args.request stack) s

def HasInitSweep (usb : Usb) : Prop :=
  ∃ usbVersion, usb.deviceDescriptor = .ok usbVersion ∧ 0x0102 ≤ usbVersion

/-! ## What the device reads -/

structure SweepParameters where
  stepWidth : ℕ
  offset : ℕ
  style : ℕ
  frequencies : List ℕ
  numBytes : ℕ
  deriving DecidableEq, Repr

/-- The number of ranges follows from the length of the data. -/
def decodeInitSweep (transfer : ControlOut) : SweepParameters where
  stepWidth := decode 4 0 transfer.data
  offset := decode 4 4 transfer.data
  style := decode 1 8 transfer.data
  frequencies := (List.range ((transfer.data.length - 9) / 4 * 2)).map fun k =>
    decode 2 (9 + 2 * k) transfer.data
  numBytes := transfer.value + 65536 * transfer.index

namespace InitSweepArgs

/-- The frequencies of the list which belong to a range. -/
def listed (args : InitSweepArgs) : List ℕ :=
  (List.range (args.numRanges.toInt * 2).toNat).map fun k =>
    (args.frequencyList k).toNat

def parameters (args : InitSweepArgs) : SweepParameters where
  stepWidth := args.stepWidth.toNat
  offset := args.offset.toNat
  style := args.style.toNat
  frequencies := args.listed
  numBytes := args.numBytes.toNat

structure Accepted (usb : Usb) (args : InitSweepArgs) : Prop where
  usbVersion : HasInitSweep usb
  one_le : 1 ≤ args.numRanges.toInt
  le_max : args.numRanges.toInt ≤ maxSweepRanges
  blocks : args.numBytes.toNat % bytesPerBlock = 0
  block_le : bytesPerBlock ≤ args.numBytes.toNat
  stepWidth : 1 ≤ args.stepWidth.toNat
  style : args.style.toNat ≤ 1

/-- A request for which every byte was assigned within the array, and from
which the arguments can be read. -/
structure EncodedIn (args : InitSweepArgs) (transfer : ControlOut) :
    Prop where
  inside : ∀ write ∈ args.writes, write.1 < dataSize
  length : transfer.data.length = 9 + 4 * args.numRanges.toInt.toNat
  written : ∀ i < transfer.data.length, i ∈ args.writes.map Prod.fst
  decoded : decodeInitSweep transfer = args.parameters

/-! ## The bytes -/

theorem and_lowByte (n : ℕ) : n &&& 255 = n % 256 :=
  Nat.and_two_pow_sub_one_eq_mod n 8

theorem encode_uint32 (value : UInt32) :
    encode 4 value.toNat =
      [(value &&& 0xff).toUInt8, ((value >>> 8) &&& 0xff).toUInt8,
        ((value >>> 16) &&& 0xff).toUInt8,
        ((value >>> 24) &&& 0xff).toUInt8] := by
  have hbytes : encode 4 value.toNat =
      [UInt8.ofNat (value.toNat / 256 ^ 0), UInt8.ofNat (value.toNat / 256 ^ 1),
        UInt8.ofNat (value.toNat / 256 ^ 2),
        UInt8.ofNat (value.toNat / 256 ^ 3)] := rfl
  rw [hbytes]
  simp [← UInt8.toNat_inj, and_lowByte, Nat.shiftRight_eq_div_pow]

theorem encode_uint16 (value : UInt16) :
    encode 2 value.toNat =
      [(value &&& 0xff).toUInt8, ((value >>> 8) &&& 0xff).toUInt8] := by
  have hbytes : encode 2 value.toNat =
      [UInt8.ofNat (value.toNat / 256 ^ 0),
        UInt8.ofNat (value.toNat / 256 ^ 1)] := rfl
  rw [hbytes]
  simp [← UInt8.toNat_inj, and_lowByte, Nat.shiftRight_eq_div_pow]

theorem encode_style (style : UInt32) :
    encode 1 style.toNat = [style.toUInt8] := by
  have hbyte : encode 1 style.toNat = [UInt8.ofNat (style.toNat / 256 ^ 0)] :=
    rfl
  rw [hbyte]
  simp

variable {args : InitSweepArgs}

theorem pair_addresses (n : ℕ) :
    ((List.range n).flatMap fun i => [9 + i * 2, 10 + i * 2]) =
      List.range' 9 (n * 2) := by
  induction n with
  | zero => rfl
  | succ n ih =>
      have hlast : List.range' (9 + n * 2) 2 = [9 + n * 2, 10 + n * 2] := by
        rw [List.range'_succ, List.range'_succ, List.range'_zero]
        congr 2
        omega
      rw [List.range_succ, List.flatMap_append, ih, List.flatMap_singleton,
        ← hlast, Nat.succ_mul, List.range'_append_1]

theorem writes_addresses :
    args.writes.map Prod.fst =
      List.range' 0 (9 + (args.numRanges.toInt * 2).toNat * 2) := by
  have hpairs := pair_addresses (args.numRanges.toInt * 2).toNat
  rw [← List.range'_append_1 (s := 0) (m := 9), Nat.zero_add, ← hpairs]
  simp only [writes, List.map_append, List.map_flatMap, List.map_cons,
    List.map_nil]
  rfl

theorem writes_bytes :
    args.writes.map Prod.snd =
      [args.stepWidth.toNat, args.offset.toNat].flatMap (encode 4) ++
        ([args.style.toNat].flatMap (encode 1) ++
          args.listed.flatMap (encode 2)) := by
  have hlisted : args.listed.flatMap (encode 2) =
      (List.range (args.numRanges.toInt * 2).toNat).flatMap fun i =>
        [(args.frequencyList i &&& 0xff).toUInt8,
          ((args.frequencyList i >>> 8) &&& 0xff).toUInt8] := by
    rw [listed, List.flatMap_map]
    simp only [encode_uint16]
  rw [hlisted]
  simp only [writes, List.map_append, List.map_flatMap, List.map_cons,
    List.map_nil, List.flatMap_cons, List.flatMap_nil, encode_uint32,
    encode_style]
  rfl

theorem writeAll_writes (stack : Memory) :
    writeAll args.writes stack =
      fill 9 (args.listed.flatMap (encode 2))
        (fill 8 ([args.style.toNat].flatMap (encode 1))
          (fill 0 ([args.stepWidth.toNat, args.offset.toNat].flatMap (encode 4))
            stack)) := by
  have hlength : args.writes.length =
      9 + (args.numRanges.toInt * 2).toNat * 2 := by
    have haddresses := congrArg List.length args.writes_addresses
    rwa [List.length_map, List.length_range'] at haddresses
  have hconsecutive : args.writes.map Prod.fst =
      List.range' 0 args.writes.length := by
    rw [writes_addresses, hlength]
  rw [writeAll_eq_fill hconsecutive, writes_bytes, fill_append, fill_append]
  rfl

@[simp] theorem listed_length :
    args.listed.length = (args.numRanges.toInt * 2).toNat := by
  rw [listed, List.length_map, List.length_range]

theorem request_length (stack : Memory) :
    (args.request stack).data.length = args.size.toNat := by
  rw [request, image, List.length_map, List.length_range]

/-- The two setup words are the halves of the number of bytes. -/
theorem request_numBytes (stack : Memory) :
    (args.request stack).value + 65536 * (args.request stack).index =
      args.numBytes.toNat := by
  have hlt := args.numBytes.toNat_lt
  have hmask : ∀ n : ℕ, n &&& 65535 = n % 65536 :=
    fun n => Nat.and_two_pow_sub_one_eq_mod n 16
  simp only [request, UInt32.toNat_and, UInt32.toNat_shiftRight,
    UInt32.reduceToNat, hmask, Nat.shiftRight_eq_div_pow, Nat.reduceMod,
    Nat.reducePow]
  omega

section Decoding

variable (stack : Memory)

theorem decode_request {n offset : ℕ}
    (hinside : offset + n ≤ args.size.toNat) :
    decode n offset (args.request stack).data =
      load .little n offset (writeAll args.writes stack) :=
  decode_image hinside

theorem load_stepWidth :
    load .little 4 0 (writeAll args.writes stack) = args.stepWidth.toNat := by
  have hlt := args.stepWidth.toNat_lt
  have hload := @load_fill_flatMap stack 4 0 0
    [args.stepWidth.toNat, args.offset.toNat] Nat.zero_lt_two
  rw [writeAll_writes, load_fill_of_below (by norm_num),
    load_fill_of_below (by norm_num)]
  exact hload.trans (Nat.mod_eq_of_lt hlt)

theorem load_offset :
    load .little 4 4 (writeAll args.writes stack) = args.offset.toNat := by
  have hlt := args.offset.toNat_lt
  have hload := @load_fill_flatMap stack 4 0 1
    [args.stepWidth.toNat, args.offset.toNat] Nat.one_lt_two
  rw [writeAll_writes, load_fill_of_below (by norm_num),
    load_fill_of_below (by norm_num)]
  exact hload.trans (Nat.mod_eq_of_lt hlt)

theorem load_style :
    load .little 1 8 (writeAll args.writes stack) =
      args.style.toNat % 256 := by
  rw [writeAll_writes, load_fill_of_below (by norm_num)]
  exact @load_fill_flatMap _ 1 8 0 [args.style.toNat] Nat.zero_lt_one

theorem load_frequency {k : ℕ} (hk : k < (args.numRanges.toInt * 2).toNat) :
    load .little 2 (9 + 2 * k) (writeAll args.writes stack) =
      (args.frequencyList k).toNat := by
  have hlt := (args.frequencyList k).toNat_lt
  have hlisted : k < args.listed.length := by rwa [listed_length]
  have hget : args.listed[k] = (args.frequencyList k).toNat := by
    simp [listed]
  rw [writeAll_writes, load_fill_flatMap hlisted, hget]
  exact Nat.mod_eq_of_lt hlt

end Decoding

theorem Accepted.encodedIn {usb : Usb} (haccepted : args.Accepted usb)
    (stack : Memory) : args.EncodedIn (args.request stack) := by
  have hone := haccepted.one_le
  have hmax := haccepted.le_max
  have hstyle := haccepted.style
  have hsize : args.size.toNat = 9 + 4 * args.numRanges.toInt.toNat := by
    unfold size
    omega
  have hpairs : (args.numRanges.toInt * 2).toNat =
      args.numRanges.toInt.toNat * 2 := by omega
  refine ⟨?_, ?_, ?_, ?_⟩
  · intro write hwrite
    have haddress := List.mem_map_of_mem (f := Prod.fst) hwrite
    rw [writes_addresses, List.mem_range'_1] at haddress
    unfold dataSize maxSweepRanges at *
    omega
  · rw [request_length, hsize]
  · intro i hi
    rw [request_length] at hi
    rw [writes_addresses, List.mem_range'_1]
    omega
  · have hcount : ((args.request stack).data.length - 9) / 4 * 2 =
        (args.numRanges.toInt * 2).toNat := by
      rw [request_length]
      omega
    unfold decodeInitSweep parameters
    rw [request_numBytes, decode_request stack (by omega),
      decode_request stack (by omega), decode_request stack (by omega),
      load_stepWidth, load_offset, load_style, Nat.mod_eq_of_lt (by omega),
      hcount, listed]
    congr 1
    apply List.map_congr_left
    intro k hk
    have hk := List.mem_range.mp hk
    rw [decode_request stack (by omega), load_frequency stack hk]

/-! ## The call -/

theorem Accepted.hackrfInitSweep_eq {usb : Usb} (haccepted : args.Accepted usb)
    (stack : Memory) (s : ControlState) :
    hackrfInitSweep usb stack args s =
      sendRequest usb (· < args.size) (args.request stack) s := by
  obtain ⟨usbVersion, hdescriptor, hversion⟩ := haccepted.usbVersion
  have hone := haccepted.one_le
  have hmax := haccepted.le_max
  have hranges : ¬ (args.numRanges < 1 ∨
      args.numRanges > Int32.ofNat maxSweepRanges) := by
    rw [gt_iff_lt, Int32.lt_iff_toInt_lt, Int32.lt_iff_toInt_lt]
    rintro (hlow | hhigh)
    · exact absurd hone (not_le.mpr hlow)
    · exact absurd hmax (not_le.mpr hhigh)
  have hmultiple : ¬ args.numBytes % UInt32.ofNat bytesPerBlock ≠ 0 := by
    rw [not_not, ← UInt32.toNat_inj, UInt32.toNat_mod]
    exact haccepted.blocks
  have hblock : ¬ UInt32.ofNat bytesPerBlock > args.numBytes :=
    not_lt.mpr haccepted.block_le
  have hwidth : ¬ 1 > args.stepWidth := not_lt.mpr haccepted.stepWidth
  have hstyle : ¬ SweepStyle.interleaved.code < args.style :=
    not_lt.mpr haccepted.style
  unfold hackrfInitSweep usbApiRequiredOut
  rw [hdescriptor]
  dsimp only
  rw [if_neg (by omega), if_neg hranges, if_neg hmultiple,
    if_neg hblock, if_neg hwidth, if_neg hstyle]

theorem hackrfInitSweep_of_not_accepted {usb : Usb}
    (hrejected : ¬ args.Accepted usb) (stack : Memory) (s : ControlState) :
    ((hackrfInitSweep usb stack args s).1 = .usbApiVersion ∨
      (hackrfInitSweep usb stack args s).1 = .invalidParam) ∧
      (hackrfInitSweep usb stack args s).2.sent = s.sent := by
  unfold hackrfInitSweep usbApiRequiredOut
  cases hdescriptor : usb.deviceDescriptor with
  | error result =>
      exact ⟨.inl rfl, rfl⟩
  | ok usbVersion =>
      dsimp only
      split_ifs with hversion hranges hblocks hblock hwidth hstyle
      · exact ⟨.inl rfl, rfl⟩
      · exact ⟨.inr rfl, rfl⟩
      · exact ⟨.inr rfl, rfl⟩
      · exact ⟨.inr rfl, rfl⟩
      · exact ⟨.inr rfl, rfl⟩
      · exact ⟨.inr rfl, rfl⟩
      · rw [gt_iff_lt, Int32.lt_iff_toInt_lt, Int32.lt_iff_toInt_lt,
          not_or, not_lt, not_lt] at hranges
        rw [not_not, ← UInt32.toNat_inj, UInt32.toNat_mod] at hblocks
        exact absurd {
          usbVersion := ⟨usbVersion, hdescriptor, not_lt.mp hversion⟩
          one_le := hranges.1
          le_max := hranges.2
          blocks := hblocks
          block_le := not_lt.mp hblock
          stepWidth := not_lt.mp hwidth
          style := not_lt.mp hstyle } hrejected

end InitSweepArgs

/-- The request of an accepted call has its parameters, so calls with other
parameters send other requests. -/
theorem hackrfInitSweep_encodes (usb : Usb) (stack : Memory)
    (args : InitSweepArgs) (haccepted : args.Accepted usb) (s : ControlState) :
    ∃ transfer,
      (hackrfInitSweep usb stack args s).2.sent = s.sent ++ [transfer] ∧
      args.EncodedIn transfer ∧
      ∀ (usb' : Usb) (stack' : Memory) (args' : InitSweepArgs)
        (s' : ControlState), args'.Accepted usb' →
        args'.parameters ≠ args.parameters →
        (hackrfInitSweep usb' stack' args' s').2.sent ≠
          s'.sent ++ [transfer] := by
  have hsent : ∀ {usb : Usb} {args : InitSweepArgs}, args.Accepted usb →
      ∀ stack s, (hackrfInitSweep usb stack args s).2.sent =
        s.sent ++ [args.request stack] := by
    intro usb args haccepted stack s
    rw [haccepted.hackrfInitSweep_eq, sendRequest_sent]
  refine ⟨args.request stack, hsent haccepted stack s,
    haccepted.encodedIn stack, ?_⟩
  intro usb' stack' args' s' haccepted' hdiffer hsame
  rw [hsent haccepted', List.append_cancel_left_eq, List.singleton_inj] at hsame
  apply hdiffer
  rw [← (haccepted'.encodedIn stack').decoded, hsame,
    (haccepted.encodedIn stack).decoded]

/-- The sweep of one range from 2400 to 2500 MHz with the smallest capture. -/
def InitSweepArgs.wifi : InitSweepArgs where
  frequencyList := fun i => if i = 0 then 2400 else 2500
  numRanges := 1
  numBytes := 16384
  stepWidth := 20000000
  offset := 7500000
  style := 1

theorem InitSweepArgs.wifi_accepted : InitSweepArgs.wifi.Accepted obligingUsb where
  usbVersion := ⟨0x0104, rfl, by decide⟩
  one_le := by decide
  le_max := by decide
  blocks := by decide
  block_le := by decide
  stepWidth := by decide
  style := by decide

theorem hackrfInitSweep_encodes_wifi :
    ∃ transfer,
      (hackrfInitSweep obligingUsb (fun _ => 0xAA) .wifi ⟨0, []⟩).2.sent =
        [transfer] ∧
      InitSweepArgs.wifi.EncodedIn transfer := by
  obtain ⟨transfer, hsent, hencoded, -⟩ := hackrfInitSweep_encodes obligingUsb
    (fun _ => 0xAA) .wifi InitSweepArgs.wifi_accepted ⟨0, []⟩
  exact ⟨transfer, hsent, hencoded⟩

end HackRF.Sweep
