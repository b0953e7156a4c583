import HackRF.ByteMemory

/-!
# Messages of the plugin

The serialisers of `common_hackrf.h`, and the way a server's sweep request
reaches `hackrf_sweep`: `client_request_cb` hands over the record of type
`hackrf_sweep_request`, and `hackrf_sweep` reads the same bytes as a
`hackrf_sweep_args`.
-/

namespace HackRF

open ByteMemory

/-! ## Serialisers -/

/-- The shifts of `buff[0]` to `buff[9]`, the same in both serialisers. -/
def serialShifts : List ℕ := [56, 48, 40, 32, 24, 16, 8, 16, 24, 16]

/-- The assignments `buff[k] = val >> shift`, where `byte shift` is the byte
that is stored. -/
def serialWrites (buff : ℕ) (byte : ℕ → UInt8) : List (ℕ × UInt8) :=
  serialShifts.zipIdx.map fun (shift, k) => (buff + k, byte shift)

def uint64Byte (val : UInt64) (shift : ℕ) : UInt8 :=
  UInt8.ofNat (val.toNat / 2 ^ shift)

/-- The argument is promoted to a 32-bit `int`, so the first four shifts are
undefined; the bytes they give are a parameter. -/
def uint16Byte (undefinedShift : UInt16 → ℕ → UInt8) (val : UInt16)
    (shift : ℕ) : UInt8 :=
  if shift < 32 then UInt8.ofNat (val.toNat / 2 ^ shift)
  else undefinedShift val shift

def serializeUint64 (buff : ℕ) (val : UInt64) (mem : Memory) : Memory :=
  writeAll (serialWrites buff (uint64Byte val)) mem

def serializeUint16 (undefinedShift : UInt16 → ℕ → UInt8) (buff : ℕ)
    (val : UInt16) (mem : Memory) : Memory :=
  writeAll (serialWrites buff (uint16Byte undefinedShift val)) mem

inductive Serialized where
  | uint16 (val : UInt16)
  | uint64 (val : UInt64)
  deriving DecidableEq, Repr

namespace Serialized

def value : Serialized → ℕ
  | uint16 val => val.toNat
  | uint64 val => val.toNat

def size : Serialized → ℕ
  | uint16 _ => 2
  | uint64 _ => 8

def byte (undefinedShift : UInt16 → ℕ → UInt8) : Serialized → ℕ → UInt8
  | uint16 val => uint16Byte undefinedShift val
  | uint64 val => uint64Byte val

/-- The bytes a serialiser assigns, in order and with their addresses. -/
def writes (undefinedShift : UInt16 → ℕ → UInt8) (buff : ℕ)
    (message : Serialized) : List (ℕ × UInt8) :=
  serialWrites buff (message.byte undefinedShift)

def run (undefinedShift : UInt16 → ℕ → UInt8) (buff : ℕ) :
    Serialized → Memory → Memory
  | uint16 val => serializeUint16 undefinedShift buff val
  | uint64 val => serializeUint64 buff val

/-- Exactly the bytes of the value are written, the value is recovered from
them, and the memory beyond them is as before. -/
structure Lossless (undefinedShift : UInt16 → ℕ → UInt8) (buff : ℕ)
    (mem : Memory) (message : Serialized) : Prop where
  exact : ∀ a, a ∈ (message.writes undefinedShift buff).map Prod.fst ↔
    buff ≤ a ∧ a < buff + message.size
  recovers : load .big message.size buff (message.run undefinedShift buff mem) =
    message.value
  unchanged : ∀ a, buff + message.size ≤ a →
    message.run undefinedShift buff mem a = mem a

variable {undefinedShift : UInt16 → ℕ → UInt8} {buff : ℕ} {mem : Memory}

theorem writes_fst (message : Serialized) :
    (message.writes undefinedShift buff).map Prod.fst =
      List.range' buff 10 := rfl

theorem writes_snd (message : Serialized) :
    (message.writes undefinedShift buff).map Prod.snd =
      serialShifts.map (message.byte undefinedShift) := rfl

theorem run_eq_fill (message : Serialized) :
    message.run undefinedShift buff mem =
      fill buff (serialShifts.map (message.byte undefinedShift)) mem := by
  have hrun : message.run undefinedShift buff mem =
      writeAll (message.writes undefinedShift buff) mem := by
    cases message <;> rfl
  rw [hrun, writeAll_eq_fill (message.writes_fst), writes_snd]

/-- Whatever the value, the last two of the ten bytes are beyond it. -/
theorem not_lossless (undefinedShift : UInt16 → ℕ → UInt8) (buff : ℕ)
    (mem : Memory) (message : Serialized) :
    ¬ message.Lossless undefinedShift buff mem := by
  intro hlossless
  have hwritten : buff + 9 ∈
      (message.writes undefinedShift buff).map Prod.fst := by
    rw [writes_fst, List.mem_range']
    exact ⟨9, by norm_num, by norm_num⟩
  have hbelow := ((hlossless.exact (buff + 9)).mp hwritten).2
  have hsize : message.size ≤ 8 := by cases message <;> simp [size]
  omega

/-! ### What a reader recovers -/

theorem fill_getElem {data : List UInt8} {k : ℕ} (hk : k < data.length) :
    fill buff data mem (buff + k) = data[k] := by
  rw [fill, if_pos (by omega), Nat.add_sub_cancel_left,
    List.getD_eq_getElem?_getD, List.getElem?_eq_getElem hk]
  rfl

/-- A big-endian load of the first bytes of a string that has been received. -/
theorem load_fill {data : List UInt8} {size : ℕ} (hsize : size ≤ data.length) :
    load .big size buff (fill buff data mem) =
      Nat.ofDigits 256 ((data.take size).reverse.map UInt8.toNat) := by
  rw [load, bytes]
  congr 1
  apply List.ext_getElem (by simp [hsize])
  intro k hk _
  rw [List.length_map, List.length_range] at hk
  have hplace : size - 1 - k < data.length := by omega
  have hbyte := @fill_getElem buff mem data _ hplace
  simp [ByteOrder.place, hbyte, hsize]

theorem load_uint64 (val : UInt64) :
    load .big 8 buff ((uint64 val).run undefinedShift buff mem) =
      val.toNat / 256 * 256 + val.toNat / 2 ^ 16 % 256 := by
  have hlt := UInt64.toNat_lt val
  have hbytes : ((serialShifts.map ((uint64 val).byte undefinedShift)).take
      8).reverse.map UInt8.toNat =
        [16, 8, 16, 24, 32, 40, 48, 56].map fun shift =>
          val.toNat / 2 ^ shift % 2 ^ 8 := rfl
  rw [run_eq_fill, load_fill (by simp [serialShifts]), hbytes]
  simp only [List.map_cons, List.map_nil, Nat.ofDigits_cons, Nat.ofDigits_nil]
  clear hbytes
  omega

theorem load_uint16 (val : UInt16) :
    load .big 2 buff ((uint16 val).run undefinedShift buff mem) =
      (undefinedShift val 56).toNat * 256 +
        (undefinedShift val 48).toNat := by
  have hbytes : ((serialShifts.map ((uint16 val).byte undefinedShift)).take
      2).reverse.map UInt8.toNat =
        [(undefinedShift val 48).toNat, (undefinedShift val 56).toNat] := rfl
  rw [run_eq_fill, load_fill (by simp [serialShifts]), hbytes]
  simp only [Nat.ofDigits_cons, Nat.ofDigits_nil]
  omega

/-- A reader gets a 64-bit value back if and only if its lowest byte is its
third, which stands in the lowest one's place. -/
theorem recovers_uint64_iff (val : UInt64) :
    load .big 8 buff ((uint64 val).run undefinedShift buff mem) =
        val.toNat ↔
      val.toNat % 256 = val.toNat / 2 ^ 16 % 256 := by
  rw [load_uint64]
  omega

/-- Whether a reader gets a 16-bit value back is up to the two undefined
shifts by more than 40. -/
theorem recovers_uint16_iff (val : UInt16) :
    load .big 2 buff ((uint16 val).run undefinedShift buff mem) =
        val.toNat ↔
      (undefinedShift val 56).toNat = val.toNat / 256 ∧
        (undefinedShift val 48).toNat = val.toNat % 256 := by
  have hlt := UInt16.toNat_lt val
  have hfirst := UInt8.toNat_lt (undefinedShift val 56)
  have hsecond := UInt8.toNat_lt (undefinedShift val 48)
  rw [load_uint16]
  omega

/-- The value 1 comes back as 0. -/
theorem lossless_fails_one :
    load .big 8 0 ((uint64 1).run (fun _ _ => 0) 0 fun _ => 0) = 0 ∧
      ¬ (uint64 1).Lossless (fun _ _ => 0) 0 (fun _ => 0) := by
  have hzero : load .big 8 0
      ((uint64 1).run (fun _ _ => 0) 0 fun _ => 0) = 0 := by
    rw [load_uint64]
    rfl
  refine ⟨hzero, fun hlossless => ?_⟩
  have hone := hlossless.recovers
  rw [size, hzero] at hone
  exact absurd hone (by decide)

end Serialized

/-! ## Structures -/

/-- `hackrf_sweep_request`, sent by the server. -/
structure HackrfSweepRequest where
  date : UInt64
  time : UInt64
  hzLow : UInt64
  hzHigh : UInt64
  hzBinWidth : UInt64
  numSamples : UInt16
  dB : UInt64
  deriving DecidableEq, Repr

/-- The members of `hackrf_sweep_args` that `hackrf_sweep` reads. -/
structure HackrfSweepArgs where
  freqMin : UInt32
  freqMax : UInt32
  requestedFftBinWidth : UInt32
  numSweeps : UInt32
  vgaGain : UInt32
  lnaGain : UInt32
  deriving DecidableEq, Repr

/-- The sizes of the members, in the order of their declaration. -/
def HackrfSweepRequest.sizes : List ℕ := [8, 8, 8, 8, 8, 2, 8]

/-- The sizes of `ip`, `port`, `serial_number`, `freq_min`, `freq_mid`,
`freq_max`, `requested_fft_bin_width`, `num_sweeps`, `vga_gain`, `lna_gain`,
`band_edge`, `record_length`, `antenna_enable` and `retdata2client_cb`. -/
def HackrfSweepArgs.sizes : List ℕ :=
  [4, 2, 4, 4, 4, 4, 4, 4, 4, 4, 4, 4, 1, 8]

def HackrfSweepRequest.values (request : HackrfSweepRequest) : List ℕ :=
  [request.date.toNat, request.time.toNat, request.hzLow.toNat,
    request.hzHigh.toNat, request.hzBinWidth.toNat, request.numSamples.toNat,
    request.dB.toNat]

def HackrfSweepRequest.place (host : ByteOrder) (data : ℕ)
    (request : HackrfSweepRequest) (mem : Memory) : Memory :=
  storeStruct host data sizes request.values mem

/-- What `hackrf_sweep` reads through its parameter. -/
def HackrfSweepArgs.read (host : ByteOrder) (args : ℕ) (mem : Memory) :
    HackrfSweepArgs where
  freqMin := UInt32.ofNat (loadMember host args sizes 3 mem)
  freqMax := UInt32.ofNat (loadMember host args sizes 5 mem)
  requestedFftBinWidth := UInt32.ofNat (loadMember host args sizes 6 mem)
  numSweeps := UInt32.ofNat (loadMember host args sizes 7 mem)
  vgaGain := UInt32.ofNat (loadMember host args sizes 8 mem)
  lnaGain := UInt32.ofNat (loadMember host args sizes 9 mem)

/-- `client_request_cb` for the record at `data`: the sweep command passes on
the pointer, the other known command connects to another server. -/
def clientRequestCb {α : Type*} (cmdtype : ℕ) (hackrfSweep : ℕ → α)
    (connectToNewServer : α) (data : ℕ) : Option α :=
  if cmdtype = 1 then some (hackrfSweep data)
  else if cmdtype = 2 then some connectToNewServer
  else none

variable {host : ByteOrder} {data : ℕ} {mem : Memory}

/-- The half of a 64-bit member that stands four bytes into it. -/
def laterHalf (host : ByteOrder) (value : UInt64) : ℕ :=
  match host with
  | .little => value.toNat / 2 ^ 32
  | .big => value.toNat % 2 ^ 32

def earlierHalf (host : ByteOrder) (value : UInt64) : ℕ :=
  match host with
  | .little => value.toNat % 2 ^ 32
  | .big => value.toNat / 2 ^ 32

theorem HackrfSweepRequest.place_eq (request : HackrfSweepRequest) :
    request.place host data mem =
      store host 8 (data + 48) request.dB.toNat
        (store host 2 (data + 40) request.numSamples.toNat
          (store host 8 (data + 32) request.hzBinWidth.toNat
            (store host 8 (data + 24) request.hzHigh.toNat
              (store host 8 (data + 16) request.hzLow.toNat
                (store host 8 (data + 8) request.time.toNat
                  (store host 8 data request.date.toNat mem)))))) := rfl

theorem load_laterHalf {addr : ℕ} (value : UInt64) :
    load host 4 (addr + 4) (store host 8 addr value.toNat mem) =
      laterHalf host value := by
  have hlt := UInt64.toNat_lt value
  rw [load_store_within (by norm_num)]
  cases host with
  | little =>
      simp only [laterHalf]
      omega
  | big =>
      simp only [laterHalf]
      omega

theorem load_earlierHalf {addr : ℕ} (value : UInt64) :
    load host 4 addr (store host 8 addr value.toNat mem) =
      earlierHalf host value := by
  have hlt := UInt64.toNat_lt value
  have hwithin := @load_store_within host mem 4 8 addr 0 value.toNat (by norm_num)
  rw [Nat.add_zero] at hwithin
  rw [hwithin]
  cases host with
  | little =>
      simp only [earlierHalf]
      omega
  | big =>
      simp only [earlierHalf]
      omega

theorem HackrfSweepArgs.toNat_ofNat_load {addr : ℕ} :
    (UInt32.ofNat (load host 4 addr mem)).toNat = load host 4 addr mem := by
  have hlt : load host 4 addr mem < 2 ^ 32 := load_lt
  rw [UInt32.toNat_ofNat', Nat.mod_eq_of_lt hlt]

theorem HackrfSweepArgs.freqMin_place (request : HackrfSweepRequest) :
    (read host data (request.place host data mem)).freqMin.toNat =
      laterHalf host request.time := by
  calc (read host data (request.place host data mem)).freqMin.toNat
      = load host 4 (data + 8 + 4) (request.place host data mem) :=
        toNat_ofNat_load
    _ = load host 4 (data + 8 + 4)
          (store host 8 (data + 8) request.time.toNat
            (store host 8 data request.date.toNat mem)) := by
        rw [HackrfSweepRequest.place_eq, load_store_of_disjoint (by omega),
          load_store_of_disjoint (by omega), load_store_of_disjoint (by omega),
          load_store_of_disjoint (by omega), load_store_of_disjoint (by omega)]
    _ = laterHalf host request.time := load_laterHalf request.time

theorem HackrfSweepArgs.freqMax_place (request : HackrfSweepRequest) :
    (read host data (request.place host data mem)).freqMax.toNat =
      laterHalf host request.hzLow := by
  rw [← load_laterHalf request.hzLow]
  calc (read host data (request.place host data mem)).freqMax.toNat
      = load host 4 (data + 16 + 4) (request.place host data mem) :=
        toNat_ofNat_load
    _ = _ := by
        rw [HackrfSweepRequest.place_eq, load_store_of_disjoint (by omega),
          load_store_of_disjoint (by omega), load_store_of_disjoint (by omega),
          load_store_of_disjoint (by omega)]

theorem HackrfSweepArgs.requestedFftBinWidth_place
    (request : HackrfSweepRequest) :
    (read host data (request.place host data mem)).requestedFftBinWidth.toNat =
      earlierHalf host request.hzHigh := by
  rw [← load_earlierHalf request.hzHigh]
  calc (read host data
        (request.place host data mem)).requestedFftBinWidth.toNat
      = load host 4 (data + 24) (request.place host data mem) :=
        toNat_ofNat_load
    _ = _ := by
        rw [HackrfSweepRequest.place_eq, load_store_of_disjoint (by omega),
          load_store_of_disjoint (by omega), load_store_of_disjoint (by omega)]

/-- What the sweep reads is what the server asked for, in MHz. -/
def HackrfSweepRequest.ReachesAs (request : HackrfSweepRequest)
    (args : HackrfSweepArgs) : Prop :=
  args.freqMin.toNat = request.hzLow.toNat / 1000000 ∧
    args.freqMax.toNat = request.hzHigh.toNat / 1000000 ∧
    args.requestedFftBinWidth.toNat = request.hzBinWidth.toNat

/-- The sweep reads `freq_min` from `time`, `freq_max` from `hz_low` and
`requested_fft_bin_width` from `hz_high`, so these have to be the values. -/
theorem clientRequestCb_reaches_iff (host : ByteOrder) (data : ℕ)
    (mem : Memory) (request : HackrfSweepRequest) :
    (∃ args, clientRequestCb 1
        (fun sweepArgs => some (HackrfSweepArgs.read host sweepArgs
          (request.place host data mem))) none data = some (some args) ∧
      request.ReachesAs args) ↔
      laterHalf host request.time = request.hzLow.toNat / 1000000 ∧
        laterHalf host request.hzLow = request.hzHigh.toNat / 1000000 ∧
        earlierHalf host request.hzHigh = request.hzBinWidth.toNat := by
  simp only [clientRequestCb, if_true, Option.some.injEq, exists_eq_left',
    HackrfSweepRequest.ReachesAs, HackrfSweepArgs.freqMin_place,
    HackrfSweepArgs.freqMax_place, HackrfSweepArgs.requestedFftBinWidth_place]

/-- A request for 2400 to 2500 MHz with bins of 1 MHz. -/
def wifiRequest : HackrfSweepRequest where
  date := 0
  time := 0
  hzLow := 2400000000
  hzHigh := 2500000000
  hzBinWidth := 1000000
  numSamples := 8192
  dB := 0

theorem clientRequestCb_reaches_fails :
    ¬ ∃ args, clientRequestCb 1
        (fun sweepArgs => some (HackrfSweepArgs.read .little sweepArgs
          (wifiRequest.place .little 0 (fun _ => 0)))) none 0 =
          some (some args) ∧
      wifiRequest.ReachesAs args := by
  rintro ⟨args, hargs, hmin, -⟩
  simp only [clientRequestCb, if_true, Option.some.injEq] at hargs
  rw [← hargs, HackrfSweepArgs.freqMin_place] at hmin
  simp [laterHalf, wifiRequest] at hmin

end HackRF
